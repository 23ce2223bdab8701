import Mathlib.Data.List.Induction
import GrainDirectory.Proofs.Insertions
set_option autoImplicit false

/-!
# Removals go by the age of the registration

An activation whose registration may be stale is removed only once the registration has reached a
certain age.  What counts is the time of the insertion that the present registration goes back to.
`Partition.InsertedAt` says which one that is, in terms of the uses alone: the one since which the
address has been registered without a break.  `Partition.insertedAt_iff` shows that a registration
remembers just this time, and `Partition.removal_by_age` that removals go by it.

The clock may go back; a registration from the future has no age.
-/

namespace GrainDirectory

namespace Partition

variable {p : Partition} {u : Use} {uses : List Use} {a : GrainAddress} {time : Nat}

/-! ## When a registration was inserted -/

/-- Whether an address that is registered after some uses was inserted at a time: one of the uses inserted
it then, and ever since it has been registered for its grain. -/
def InsertedAt (p : Partition) (uses : List Use) (a : GrainAddress) (time : Nat) : Prop :=
  ∃ early u late, uses = early ++ u :: late ∧ (p.after early).insertion? u = some ⟨a, time⟩ ∧
    ∀ during, during <+: late →
      ∃ r, (p.after (early ++ u :: during)).registration? a.grain.id = some r ∧ r.address = a

/-- What a use inserts has been inserted at its moment. -/
theorem insertedAt_of_insertion {e : Insertion} (h : (p.after uses).insertion? u = some e) :
    p.InsertedAt (uses ++ [u]) e.address e.time := by
  refine ⟨uses, u, [], rfl, h, fun during hduring => ?_⟩
  rw [List.prefix_nil.mp hduring, after_concat, perform_of_insertion h, registration?_insert,
    if_pos rfl]
  exact ⟨_, rfl, rfl⟩

/-- A use that leaves an address registered does not renew the time of its insertion. -/
theorem InsertedAt.concat {r : Registration} (h : p.InsertedAt uses a time)
    (hr : (p.after (uses ++ [u])).registration? a.grain.id = some r) (hra : r.address = a) :
    p.InsertedAt (uses ++ [u]) a time := by
  obtain ⟨early, v, late, rfl, hinsertion, hsince⟩ := h
  have hsplit : early ++ v :: late ++ [u] = early ++ v :: (late ++ [u]) := by simp
  refine ⟨early, v, late ++ [u], hsplit, hinsertion, fun during hduring => ?_⟩
  rcases List.prefix_concat_iff.mp hduring with rfl | hbefore
  · exact ⟨r, hsplit ▸ hr, hra⟩
  · exact hsince during hbefore

/-- An address is not inserted where the same activation is registered. -/
theorem insertion?_of_matches {m : Moment} {address : GrainAddress} {previous : Option GrainAddress}
    {r : Registration} (hr : p.registration? address.grain.id = some r)
    (hmatch : r.address.Matches address) : p.insertion? ⟨m, .add address previous⟩ = none := by
  rw [insertion?_add, if_neg]
  exact fun hinserts => (hinserts r hr).1 hmatch

/-- A registration that is still that of its address has not been inserted since. -/
theorem registration?_of_same_address {r r' : Registration}
    (hr : p.registration? a.grain.id = some r) (hra : r.address = a)
    (hr' : (p.perform u).2.registration? a.grain.id = some r') (hra' : r'.address = a) :
    r' = r := by
  rcases registration?_perform_cases hr' with ⟨hinsertion, -⟩ | hbefore
  · obtain ⟨previous, -, -, hinserts⟩ := insertion?_eq_some_iff.mp hinsertion
    rw [hra'] at hinserts
    exact absurd (hra ▸ GrainAddress.Matches.refl a) (hinserts r hr).1
  · exact Option.some.inj (hbefore.symm.trans hr)

/-- A registration remembers the time of the insertion since which its address has been registered. -/
theorem insertedAt_iff (hempty : ∀ id, p.registration? id = none) :
    p.InsertedAt uses a time ↔
      ∃ tag, (p.after uses).registration? a.grain.id = some ⟨a, tag, time⟩ := by
  constructor
  · rintro ⟨early, u, late, rfl, hinsertion, hsince⟩
    -- induction on how long ago the insertion was
    induction late using List.reverseRecOn with
    | nil =>
      rw [after_concat, perform_of_insertion hinsertion, registration?_insert, if_pos rfl]
      exact ⟨_, rfl⟩
    | append_singleton late v ih =>
      obtain ⟨tag, hr⟩ := ih fun during hduring =>
        hsince during (hduring.trans (List.prefix_append late [v]))
      obtain ⟨r', hr', hra'⟩ := hsince (late ++ [v]) (List.prefix_refl _)
      have hsplit : early ++ u :: (late ++ [v]) = early ++ u :: late ++ [v] := by simp
      rw [hsplit, after_concat] at hr' ⊢
      rw [registration?_of_same_address hr rfl hr' hra'] at hr'
      exact ⟨tag, hr'⟩
  · rintro ⟨tag, hr⟩
    induction uses using List.reverseRecOn generalizing tag with
    | nil => exact nomatch (hempty a.grain.id).symm.trans hr
    | append_singleton uses u ih =>
      have hr' := hr
      rw [after_concat] at hr'
      rcases registration?_perform_cases hr' with ⟨hinsertion, -⟩ | hbefore
      · exact insertedAt_of_insertion hinsertion
      · exact (ih tag hbefore).concat hr rfl

/-! ## Removals -/

theorem removeActivation_of_registered {r : Registration} (now : Nat) {g : Grain}
    (activation : ActivationId) (cause : RemovalCause) (hr : p.registration? g.id = some r) :
    (p.removeActivation now g activation cause).1 = true ↔
      r.address.activation = activation ∧ p.Removable now r cause := by
  unfold removeActivation
  rw [hr]
  dsimp only
  split
  · rename_i h
    exact iff_of_true rfl h
  · rename_i h
    exact iff_of_false Bool.false_ne_true h

/-- A removal takes what it says it has taken, or nothing. -/
theorem removeActivation_cases (now : Nat) (g : Grain) (activation : ActivationId)
    (cause : RemovalCause) :
    (p.removeActivation now g activation cause).1 = true ∧
        (∃ r, p.registration? g.id = some r) ∧
        (∀ id, (p.removeActivation now g activation cause).2.registration? id =
          if id = g.id then none else p.registration? id) ∨
      p.removeActivation now g activation cause = (false, p) := by
  unfold removeActivation
  cases hr : p.registration? g.id with
  | none => exact .inr rfl
  | some r =>
    dsimp only
    split
    · exact .inl ⟨rfl, ⟨r, rfl⟩, fun id => Table.find?_erase _ _ _⟩
    · exact .inr rfl

/-- Whether the cause lets a registration go is a matter of the time of its insertion. -/
theorem removable_iff (now : Nat) (r : Registration) (cause : RemovalCause) :
    p.Removable now r cause ↔
      cause = .force ∨ p.lazyDelay ≠ 0 ∧ r.since + p.lazyDelay ≤ now := by
  cases cause with
  | force => simp [Removable]
  | nonexistentActivation =>
    simp only [Removable, reduceCtorEq, false_or]
    constructor
    · rintro ⟨hdelay, hage⟩
      exact ⟨hdelay, by omega⟩
    · rintro ⟨hdelay, hage⟩
      exact ⟨hdelay, by omega⟩

/-- An activation is removed exactly if it has been inserted at a time that lets it go. -/
theorem removed_iff (hempty : ∀ id, p.registration? id = none) (m : Moment) (g : Grain)
    (activation : ActivationId) (cause : RemovalCause) :
    ((p.after uses).perform ⟨m, .removeActivation g activation cause⟩).1 = .removed true ↔
      ∃ a time, p.InsertedAt uses a time ∧ a.grain.id = g.id ∧ a.activation = activation ∧
        (cause = .force ∨ p.lazyDelay ≠ 0 ∧ time + p.lazyDelay ≤ m.now) := by
  have hdelay : (p.after uses).lazyDelay = p.lazyDelay := (settings_after uses).1
  have hanswer :
      ((p.after uses).perform ⟨m, .removeActivation g activation cause⟩).1 = .removed true ↔
        ((p.after uses).removeActivation m.now g activation cause).1 = true := by
    simp [perform]
  rw [hanswer]
  constructor
  · intro h
    obtain ⟨-, ⟨r, hr⟩, -⟩ | hrefused :=
      (p.after uses).removeActivation_cases m.now g activation cause
    · obtain ⟨hactivation, hremovable⟩ :=
        (removeActivation_of_registered m.now activation cause hr).mp h
      rw [removable_iff, hdelay] at hremovable
      have hgrain : r.address.grain.id = g.id := registration?_grainId hr
      have hinserted : p.InsertedAt uses r.address r.since :=
        (insertedAt_iff hempty).mpr ⟨r.tag, hgrain ▸ hr⟩
      exact ⟨r.address, r.since, hinserted, hgrain, hactivation, hremovable⟩
    · rw [hrefused] at h
      cases h
  · rintro ⟨a, time, hinserted, hgrain, hactivation, hcause⟩
    obtain ⟨tag, hr⟩ := (insertedAt_iff hempty).mp hinserted
    rw [hgrain] at hr
    rw [removeActivation_of_registered m.now activation cause hr, removable_iff, hdelay]
    exact ⟨hactivation, hcause⟩

/-! ## The age -/

/-- What it means that a partition removes registrations by their age. -/
structure RemovesByAge (p : Partition) : Prop where
  /-- Whatever is registered has been inserted at some time, -/
  dated : ∀ uses id r, (p.after uses).registration? id = some r →
    ∃ time, p.InsertedAt uses r.address time
  /-- and at one time only. -/
  sole : ∀ uses a time time', p.InsertedAt uses a time → p.InsertedAt uses a time' → time = time'
  /-- What has been inserted at a time is registered. -/
  present : ∀ uses a time, p.InsertedAt uses a time →
    ∃ r, (p.after uses).registration? a.grain.id = some r ∧ r.address = a
  /-- An activation is removed exactly if it is registered for the grain, and it is to go anyway or, where
  there is a delay, at least the delay has passed since its insertion. -/
  removed : ∀ uses m g activation cause,
    ((p.after uses).perform ⟨m, .removeActivation g activation cause⟩).1 = .removed true ↔
      ∃ a time, p.InsertedAt uses a time ∧ a.grain.id = g.id ∧ a.activation = activation ∧
        (cause = .force ∨ p.lazyDelay ≠ 0 ∧ time + p.lazyDelay ≤ m.now)
  /-- Then its grain is no longer registered, and all others are as before. -/
  gone : ∀ uses m g activation cause,
    ((p.after uses).perform ⟨m, .removeActivation g activation cause⟩).1 = .removed true →
    ∀ id, (p.after (uses ++ [⟨m, .removeActivation g activation cause⟩])).registration? id =
      if id = g.id then none else (p.after uses).registration? id
  /-- In all other cases the answer is no, and nothing changes. -/
  refused : ∀ uses m g activation cause,
    ((p.after uses).perform ⟨m, .removeActivation g activation cause⟩).1 ≠ .removed true →
    (p.after uses).perform ⟨m, .removeActivation g activation cause⟩ = (.removed false, p.after uses)
  /-- The time is not renewed when the same activation is registered again, nor when another one is
  refused; these change nothing at all. -/
  kept : ∀ uses m address previous a time, p.InsertedAt uses a time →
    a.Matches address ∨ (p.after uses).insertion? ⟨m, .add address previous⟩ = none →
    p.after (uses ++ [⟨m, .add address previous⟩]) = p.after uses ∧
      p.InsertedAt (uses ++ [⟨m, .add address previous⟩]) a time
  /-- Nor is it renewed by anything else that leaves the address registered. -/
  left : ∀ uses u a time, p.InsertedAt uses a time →
    (∃ r, (p.after (uses ++ [u])).registration? a.grain.id = some r ∧ r.address = a) →
    p.InsertedAt (uses ++ [u]) a time
  /-- Whoever takes the place of another starts anew. -/
  replaced : ∀ uses u e, (p.after uses).insertion? u = some e →
    p.InsertedAt (uses ++ [u]) e.address e.time
  /-- So does whoever is registered while its grain is not, as after a removal, be it the same activation
  as before. -/
  restarted : ∀ uses m address previous, (p.after uses).registration? address.grain.id = none →
    p.InsertedAt (uses ++ [⟨m, .add address previous⟩]) address m.now

/-- Lazy removals measure the age of the registration that is present, in every history of a
partition. -/
theorem removal_by_age (lazyDelay : Nat) (watchful : Bool) :
    RemovesByAge (fresh lazyDelay watchful) := by
  have hempty (id : GrainId) : (fresh lazyDelay watchful).registration? id = none := rfl
  generalize fresh lazyDelay watchful = p at hempty
  constructor
  case dated =>
    intro uses id r hr
    have hgrain : r.address.grain.id = id := registration?_grainId hr
    exact ⟨r.since, (insertedAt_iff hempty).mpr ⟨r.tag, hgrain ▸ hr⟩⟩
  case sole =>
    intro uses a time time' h h'
    obtain ⟨tag, hr⟩ := (insertedAt_iff hempty).mp h
    obtain ⟨tag', hr'⟩ := (insertedAt_iff hempty).mp h'
    cases hr.symm.trans hr'
    rfl
  case present =>
    intro uses a time h
    obtain ⟨tag, hr⟩ := (insertedAt_iff hempty).mp h
    exact ⟨_, hr, rfl⟩
  case removed =>
    intro uses m g activation cause
    exact removed_iff hempty m g activation cause
  case gone =>
    intro uses m g activation cause h id
    rw [after_concat]
    rcases (p.after uses).removeActivation_cases m.now g activation cause with
      ⟨-, -, hgone⟩ | hrefused
    · exact hgone id
    · simp [perform, hrefused] at h
  case refused =>
    intro uses m g activation cause h
    rcases (p.after uses).removeActivation_cases m.now g activation cause with
      ⟨hremoved, -⟩ | hrefused
    · simp [perform, hremoved] at h
    · simp only [perform, hrefused]
  case kept =>
    intro uses m address previous a time hinserted hkept
    obtain ⟨tag, hr⟩ := (insertedAt_iff hempty).mp hinserted
    have hnone : (p.after uses).insertion? ⟨m, .add address previous⟩ = none :=
      hkept.elim (fun hmatch => insertion?_of_matches (hmatch.1 ▸ hr) hmatch) id
    have hsame : p.after (uses ++ [⟨m, .add address previous⟩]) = p.after uses := by
      rw [after_concat, perform_add_of_no_insertion hnone]
    exact ⟨hsame, hinserted.concat (hsame.symm ▸ hr) rfl⟩
  case left =>
    rintro uses u a time hinserted ⟨r, hr, hra⟩
    exact hinserted.concat hr hra
  case replaced =>
    intro uses u e hinsertion
    exact insertedAt_of_insertion hinsertion
  case restarted =>
    intro uses m address previous hnone
    exact insertedAt_of_insertion (insertion?_of_unregistered hnone)

end Partition

end GrainDirectory

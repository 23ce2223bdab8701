import GrainDirectory.Proofs.Insertions
import GrainDirectory.Proofs.Tags
set_option autoImplicit false

/-!
# Version tags order registrations

A partition numbers its insertions, from one up to the greatest tag, at which it stays.  The tag of a
registration is the number of the insertion it goes back to, and that is the latest one of its grain.
This is the invariant `Partition.Numbers`, which relates a partition to the list of all insertions it
has made; every use keeps it, whatever the oracle says.

What is read off tags follows from it (`Partition.tags_order_registrations`): removals and clearings do
not set the count back, so below the greatest tag a tag belongs to one address for good, and of two
observations of a grain the later one has the greater tag exactly if the registration of the first one
has been gone in between.
-/

namespace GrainDirectory

/-! ## The latest insertion of a grain -/

/-- Whether an insertion stands at a place of a list of insertions, and none of the same grain comes
after it. -/
def Latest (log : List Insertion) (k : Nat) (e : Insertion) : Prop :=
  log[k]? = some e ∧
    ∀ j e', log[j]? = some e' → e'.address.grain.id = e.address.grain.id → j ≤ k

namespace Latest

variable {log more : List Insertion} {k k' : Nat} {e e' : Insertion}

theorem lt_length (h : Latest log k e) : k < log.length :=
  (List.getElem?_eq_some_iff.mp h.1).1

theorem concat (log : List Insertion) (e : Insertion) : Latest (log ++ [e]) log.length e := by
  refine ⟨List.getElem?_concat_length, fun j e' hj _ => ?_⟩
  have hlt := (List.getElem?_eq_some_iff.mp hj).1
  rw [List.length_append, List.length_singleton] at hlt
  exact Nat.le_of_lt_succ hlt

/-- The insertion for another grain does not matter. -/
theorem concat_other (h : Latest log k e) (hother : e'.address.grain.id ≠ e.address.grain.id) :
    Latest (log ++ [e']) k e := by
  refine ⟨(List.getElem?_append_left h.lt_length).trans h.1, fun j e'' hj hgrain => ?_⟩
  rcases Nat.lt_or_ge j log.length with hlt | hge
  · rw [List.getElem?_append_left hlt] at hj
    exact h.2 j e'' hj hgrain
  · rw [List.getElem?_append_right hge, List.getElem?_singleton, Option.ite_none_right_eq_some] at hj
    rw [← Option.some.inj hj.2] at hgrain
    exact absurd hgrain hother

/-- The latest insertion of a grain only gets later. -/
theorem le_of_append (h : Latest log k e) (h' : Latest (log ++ more) k' e')
    (hgrain : e.address.grain.id = e'.address.grain.id) : k ≤ k' :=
  h'.2 k e ((List.getElem?_append_left h.lt_length).trans h.1) hgrain

/-- The latest insertion of a grain gets later exactly if there is another one. -/
theorem lt_iff_of_append (h : Latest log k e) (h' : Latest (log ++ more) k' e')
    (hgrain : e.address.grain.id = e'.address.grain.id) :
    k < k' ↔ ∃ i ∈ more, i.address.grain.id = e.address.grain.id := by
  constructor
  · intro hlt
    have hnew : log.length ≤ k' := by
      by_contra hold
      have hk' := h'.1
      rw [List.getElem?_append_left (Nat.lt_of_not_le hold)] at hk'
      exact absurd (h.2 k' e' hk' hgrain.symm) (Nat.not_le_of_lt hlt)
    have hk' := h'.1
    rw [List.getElem?_append_right hnew] at hk'
    exact ⟨e', List.mem_of_getElem? hk', hgrain.symm⟩
  · rintro ⟨i, hi, higrain⟩
    obtain ⟨j, hj⟩ := List.mem_iff_getElem?.mp hi
    have hlate : (log ++ more)[log.length + j]? = some i := by
      rw [List.getElem?_append_right (Nat.le_add_right _ _), Nat.add_sub_cancel_left]
      exact hj
    have hle := h'.2 (log.length + j) i hlate (higrain.trans hgrain)
    have hlt := h.lt_length
    omega

/-- What stands at a place stands there for good. -/
theorem eq_of_append (h : Latest log k e) (h' : Latest (log ++ more) k e') : e = e' :=
  Option.some.inj ((((List.getElem?_append_left h.lt_length).trans h.1).symm).trans h'.1)

end Latest

namespace Partition

variable {p : Partition} {log : List Insertion} {u v : Use}

/-! ## The invariant -/

/-- A partition has made some insertions, and numbers them. -/
structure Numbers (log : List Insertion) (p : Partition) : Prop where
  next : p.nextTag = tagAt log.length
  latest : ∀ id r, p.registration? id = some r →
    ∃ k, Latest log k ⟨r.address, r.since⟩ ∧ r.tag = tagAt k

theorem numbers_fresh (lazyDelay : Nat) (watchful : Bool) :
    Numbers [] (fresh lazyDelay watchful) where
  next := show (1 : Int32) = tagAt 0 by decide
  latest := fun _ _ hr => nomatch hr

/-- Every use keeps the numbering. -/
theorem numbers_perform (h : Numbers log p) (u : Use) :
    Numbers (log ++ (p.insertion? u).toList) (p.perform u).2 := by
  cases hinsertion : p.insertion? u with
  | none =>
    obtain ⟨htag, hbefore⟩ := perform_of_no_insertion hinsertion
    rw [Option.toList_none, List.append_nil]
    exact ⟨htag.trans h.next, fun id r hr => h.latest id r (hbefore id r hr)⟩
  | some e =>
    rw [perform_of_insertion hinsertion, Option.toList_some]
    constructor
    · rw [List.length_append, List.length_singleton, ← tagAfter_tagAt, ← h.next]
      rfl
    · intro id r hr
      rw [registration?_insert] at hr
      split at hr
      · cases Option.some.inj hr
        exact ⟨log.length, Latest.concat log e, h.next⟩
      · rename_i hother
        obtain ⟨k, hlatest, htag⟩ := h.latest id r hr
        have hgrain : r.address.grain.id = id := registration?_grainId hr
        exact ⟨k, hlatest.concat_other (hgrain ▸ Ne.symm hother), htag⟩

theorem numbers_after (h : Numbers log p) (uses : List Use) :
    Numbers (log ++ p.inserted uses) (p.after uses) := by
  induction uses generalizing log p with
  | nil => exact (List.append_nil log).symm ▸ h
  | cons u rest ih =>
    have hrest := ih (numbers_perform h u)
    rw [List.append_assoc] at hrest
    exact hrest

/-! ## Observations -/

/-- Whether an address is shown with a tag in answer to a use that comes after some others. -/
def Shows (p : Partition) (past : List Use) (u : Use) (a : GrainAddress) (tag : Int32) : Prop :=
  ((p.after past).perform u).1 = .located (.found a tag)

section Observations

variable {past between : List Use} {a a₁ a₂ : GrainAddress} {tag t₁ t₂ : Int32}

theorem registration?_of_shows (h : p.Shows past u a tag) :
    ∃ since, (p.after (past ++ [u])).registration? a.grain.id = some ⟨a, tag, since⟩ := by
  rw [after_concat]
  exact registration?_of_located h

/-- The tag that is shown is the number of the latest insertion of the grain. -/
theorem latest_of_shows (hp : Numbers [] p) (h : p.Shows past u a tag) :
    ∃ k time, Latest (p.inserted (past ++ [u])) k ⟨a, time⟩ ∧ tag = tagAt k := by
  obtain ⟨since, hr⟩ := registration?_of_shows h
  obtain ⟨k, hlatest, htag⟩ := (numbers_after hp (past ++ [u])).latest _ _ hr
  exact ⟨k, since, hlatest, htag⟩

/-- Of two observations, the first one is of an earlier insertion than those that are made between them
and by the second one. -/
theorem latest_of_shows_of_shows (hp : Numbers [] p) (h₁ : p.Shows past u a₁ t₁)
    (h₂ : p.Shows (past ++ u :: between) v a₂ t₂) :
    ∃ k₁ time₁ k₂ time₂, Latest (p.inserted (past ++ [u])) k₁ ⟨a₁, time₁⟩ ∧ t₁ = tagAt k₁ ∧
      Latest (p.inserted (past ++ [u]) ++ (p.after (past ++ [u])).inserted (between ++ [v])) k₂
        ⟨a₂, time₂⟩ ∧ t₂ = tagAt k₂ := by
  obtain ⟨k₁, time₁, hlatest₁, htag₁⟩ := latest_of_shows hp h₁
  obtain ⟨k₂, time₂, hlatest₂, htag₂⟩ := latest_of_shows hp h₂
  have hsplit : past ++ u :: between ++ [v] = past ++ [u] ++ (between ++ [v]) := by simp
  rw [hsplit, inserted_append] at hlatest₂
  exact ⟨k₁, time₁, k₂, time₂, hlatest₁, htag₁, hlatest₂, htag₂⟩

/-- An insertion gets a tag that has not been shown before, below the greatest one. -/
theorem lt_of_insertion {e : Insertion} (hp : Numbers [] p) (h₁ : p.Shows past u a₁ t₁)
    (hinsertion : (p.after (past ++ u :: between)).insertion? v = some e)
    (h₂ : p.Shows (past ++ u :: between) v e.address t₂) (hmax : t₁ < Int32.maxValue) :
    t₁ < t₂ := by
  obtain ⟨k₁, time₁, hlatest₁, rfl⟩ := latest_of_shows hp h₁
  have hnext : t₂ = (p.after (past ++ u :: between)).nextTag := by
    cases h₂.symm.trans (congrArg Prod.fst (perform_of_insertion hinsertion))
    rfl
  have hlength : (p.inserted (past ++ [u])).length ≤ (p.inserted (past ++ u :: between)).length := by
    rw [List.append_cons past u between, inserted_append (past ++ [u]), List.length_append]
    exact Nat.le_add_right _ _
  rw [hnext, (numbers_after hp _).next, tagAt_lt_tagAt_iff hmax]
  exact Nat.lt_of_lt_of_le hlatest₁.lt_length hlength

/-- Below the greatest tag, a grain is shown with a greater tag exactly if it has been inserted again. -/
theorem lt_iff_of_shows (hp : Numbers [] p) (h₁ : p.Shows past u a₁ t₁)
    (h₂ : p.Shows (past ++ u :: between) v a₂ t₂) (hgrain : a₁.grain.id = a₂.grain.id)
    (hmax : t₁ < Int32.maxValue) :
    t₁ < t₂ ↔ ∃ e ∈ (p.after (past ++ [u])).inserted (between ++ [v]),
      e.address.grain.id = a₁.grain.id := by
  obtain ⟨k₁, time₁, k₂, time₂, hlatest₁, rfl, hlatest₂, rfl⟩ :=
    latest_of_shows_of_shows hp h₁ h₂
  rw [tagAt_lt_tagAt_iff hmax]
  exact hlatest₁.lt_iff_of_append hlatest₂ hgrain

/-- As long as a grain is not inserted again, whatever is shown of it is what was registered all the
time. -/
theorem lookup_of_none_inserted (h₁ : p.Shows past u a₁ t₁)
    (h₂ : p.Shows (past ++ u :: between) v a₂ t₂) (hgrain : a₁.grain.id = a₂.grain.id)
    (hnone : ∀ e ∈ (p.after (past ++ [u])).inserted (between ++ [v]),
      e.address.grain.id ≠ a₁.grain.id)
    {during : List Use} (hduring : during <+: between ++ [v]) :
    (p.after (past ++ u :: during)).lookup a₁.grain = .found a₁ t₁ := by
  obtain ⟨since₁, hr₁⟩ := registration?_of_shows h₁
  obtain ⟨since₂, hr₂⟩ := registration?_of_shows h₂
  have hstart (some' : List Use) :
      p.after (past ++ u :: some') = (p.after (past ++ [u])).after some' := by
    rw [← after_append, List.append_assoc, List.singleton_append]
  obtain ⟨rest, hrest⟩ := hduring
  rw [List.append_assoc, List.cons_append, hstart, ← hrest] at hr₂
  rw [← hrest, inserted_append, List.forall_mem_append] at hnone
  rw [← hgrain, after_append] at hr₂
  have hmid := registration?_of_none_inserted hnone.2 hr₂
  have hfirst := registration?_of_none_inserted hnone.1 hmid
  rw [hr₁] at hfirst
  rw [hstart, lookup, hmid, ← Option.some.inj hfirst]
  rfl

/-- Below the greatest tag, a grain is shown with a greater tag exactly if what was shown first has been
gone in between. -/
theorem lt_iff_gone (hp : Numbers [] p) (h₁ : p.Shows past u a₁ t₁)
    (h₂ : p.Shows (past ++ u :: between) v a₂ t₂) (hgrain : a₁.grain.id = a₂.grain.id)
    (hmax : t₁ < Int32.maxValue) :
    t₁ < t₂ ↔ ∃ during, during <+: between ++ [v] ∧
      (p.after (past ++ u :: during)).lookup a₁.grain ≠ .found a₁ t₁ := by
  constructor
  · intro hlt
    refine ⟨between ++ [v], List.prefix_refl _, fun hlookup => ?_⟩
    obtain ⟨since, hr⟩ := registration?_of_shows h₂
    rw [List.append_assoc, List.cons_append, ← hgrain] at hr
    rw [lookup, hr] at hlookup
    cases hlookup
    exact Int32.lt_irrefl hlt
  · rintro ⟨during, hduring, hgone⟩
    rw [lt_iff_of_shows hp h₁ h₂ hgrain hmax]
    by_contra hnone
    push Not at hnone
    exact hgone (lookup_of_none_inserted h₁ h₂ hgrain hnone hduring)

end Observations

/-! ## The order -/

/-- What the tags of a partition say about its registrations. -/
structure TagsOrder (p : Partition) : Prop where
  /-- Every insertion gets its number as its tag, up to the greatest one, and is answered and stored with
  it. -/
  numbered : ∀ past u e, (p.after past).insertion? u = some e →
    ∃ tag : Int32, tag.toInt = min ((p.inserted past).length + 1) (2 ^ 31 - 1) ∧
      p.Shows past u e.address tag ∧
      (p.after (past ++ [u])).registration? e.address.grain.id = some ⟨e.address, tag, e.time⟩
  /-- Whoever inserts nothing consumes no tag; an address that is not inserted is answered what is
  registered, and changes nothing. -/
  idle : ∀ past u, (p.after past).insertion? u = none →
    (p.after (past ++ [u])).nextTag = (p.after past).nextTag ∧
      ∀ address previous, u.deed = .add address previous →
        (p.after past).perform u = (.located ((p.after past).lookup address.grain), p.after past)
  /-- Every tag that is stored is positive. -/
  stored : ∀ past, ∀ r ∈ (p.after past).entries.rows, 0 < r.tag
  /-- Every tag that is shown is positive; whoever is shown no address is told that there is no tag. -/
  shown : ∀ past u t, ((p.after past).perform u).1 = .located t →
    (∃ a tag, t = .found a tag ∧ 0 < tag) ∨ t = .none
  /-- No insertion gets a tag that has been shown before, whatever has been removed or cleared since, as
  long as the greatest one is not reached. -/
  unused : ∀ past u between v a₁ t₁ e t₂, p.Shows past u a₁ t₁ →
    (p.after (past ++ u :: between)).insertion? v = some e →
    p.Shows (past ++ u :: between) v e.address t₂ → t₁ < Int32.maxValue → t₁ < t₂
  /-- Below the greatest tag, what is shown with the same tag is the same address. -/
  same : ∀ past u between v a₁ t₁ a₂ t₂, p.Shows past u a₁ t₁ →
    p.Shows (past ++ u :: between) v a₂ t₂ → t₁ < Int32.maxValue → t₁ = t₂ → a₁ = a₂
  /-- The tags shown for a grain never decrease. -/
  increasing : ∀ past u between v a₁ t₁ a₂ t₂, p.Shows past u a₁ t₁ →
    p.Shows (past ++ u :: between) v a₂ t₂ → a₁.grain.id = a₂.grain.id → t₁ ≤ t₂
  /-- Below the greatest tag they increase exactly if the grain has been inserted in between. -/
  renewed : ∀ past u between v a₁ t₁ a₂ t₂, p.Shows past u a₁ t₁ →
    p.Shows (past ++ u :: between) v a₂ t₂ → a₁.grain.id = a₂.grain.id → t₁ < Int32.maxValue →
    (t₁ < t₂ ↔ ∃ e ∈ (p.after (past ++ [u])).inserted (between ++ [v]),
      e.address.grain.id = a₁.grain.id)
  /-- This is the case exactly if at some moment in between the registration shown first was gone: the
  grain was not registered, or something else was in its place. -/
  interrupted : ∀ past u between v a₁ t₁ a₂ t₂, p.Shows past u a₁ t₁ →
    p.Shows (past ++ u :: between) v a₂ t₂ → a₁.grain.id = a₂.grain.id → t₁ < Int32.maxValue →
    (t₁ < t₂ ↔ ∃ during, during <+: between ++ [v] ∧
      (p.after (past ++ u :: during)).lookup a₁.grain ≠ .found a₁ t₁)
  /-- An eviction is a sequence of removals, so histories with evictions are among these. -/
  evicted : ∀ past m test, ((p.after past).evict m.now test).2 =
    p.after (past ++ removals m ((p.after past).items.filter test))

/-- The tags of a partition order its registrations, whatever is asked of it, in whatever order, and
whatever the oracle says then. -/
theorem tags_order_registrations (lazyDelay : Nat) (watchful : Bool) :
    TagsOrder (fresh lazyDelay watchful) := by
  have hp : Numbers [] (fresh lazyDelay watchful) := numbers_fresh lazyDelay watchful
  generalize fresh lazyDelay watchful = p at hp
  have hnumbers (past : List Use) : Numbers (p.inserted past) (p.after past) := numbers_after hp past
  constructor
  case numbered =>
    intro past u e hinsertion
    have hperform := perform_of_insertion hinsertion
    refine ⟨(p.after past).nextTag, ?_, congrArg Prod.fst hperform, ?_⟩
    · rw [(hnumbers past).next, toInt_tagAt]
    · rw [after_concat, hperform, registration?_insert, if_pos rfl]
  case idle =>
    intro past u hinsertion
    rw [after_concat]
    refine ⟨(perform_of_no_insertion hinsertion).1, ?_⟩
    obtain ⟨m, deed⟩ := u
    rintro address previous rfl
    exact perform_add_of_no_insertion hinsertion
  case stored =>
    intro past r hr
    obtain ⟨k, -, htag⟩ := (hnumbers past).latest r.grainId r (Table.find?_eq_some_iff.mpr ⟨hr, rfl⟩)
    rw [htag]
    exact zero_lt_tagAt k
  case shown =>
    rintro past u ⟨address, tag⟩ h
    cases address with
    | none => exact .inr (eq_none_of_located h rfl)
    | some a =>
      obtain ⟨k, -, -, htag⟩ := latest_of_shows hp h
      exact .inl ⟨a, tag, rfl, htag ▸ zero_lt_tagAt k⟩
  case unused =>
    intro past u between v a₁ t₁ e t₂ h₁ hinsertion h₂ hmax
    exact lt_of_insertion hp h₁ hinsertion h₂ hmax
  case same =>
    intro past u between v a₁ t₁ a₂ t₂ h₁ h₂ hmax htag
    obtain ⟨k₁, time₁, k₂, time₂, hlatest₁, rfl, hlatest₂, rfl⟩ :=
      latest_of_shows_of_shows hp h₁ h₂
    cases (tagAt_inj hmax).mp htag
    exact congrArg Insertion.address (hlatest₁.eq_of_append hlatest₂)
  case increasing =>
    intro past u between v a₁ t₁ a₂ t₂ h₁ h₂ hgrain
    obtain ⟨k₁, time₁, k₂, time₂, hlatest₁, rfl, hlatest₂, rfl⟩ :=
      latest_of_shows_of_shows hp h₁ h₂
    exact tagAt_le (hlatest₁.le_of_append hlatest₂ hgrain)
  case renewed =>
    intro past u between v a₁ t₁ a₂ t₂ h₁ h₂ hgrain hmax
    exact lt_iff_of_shows hp h₁ h₂ hgrain hmax
  case interrupted =>
    intro past u between v a₁ t₁ a₂ t₂ h₁ h₂ hgrain hmax
    exact lt_iff_gone hp h₁ h₂ hgrain hmax
  case evicted =>
    intro past m test
    rw [after_append, evict_eq_after]

/-- An activation that has been removed and is registered again has the next tag. -/
example :
    (fresh 0 true).Shows [⟨⟨{}, 5⟩, .add winner none⟩, ⟨⟨{}, 6⟩, .removeGrain winner.grain⟩]
      ⟨⟨{}, 7⟩, .add winner none⟩ winner 2 := rfl

end Partition

end GrainDirectory

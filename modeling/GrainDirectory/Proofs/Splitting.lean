import Mathlib.Data.List.Basic
import GrainDirectory.Service.Steps
set_option autoImplicit false

/-!
# Splitting a batch by owner

What is known of a split when the owner of every address could be resolved.  The addresses that stay
and those that go away are the batch, each occurrence once; every address goes to the owner that it
resolves to; and splitting once more what goes away gives the same destinations with the same
addresses in the same order.
-/

namespace GrainDirectory.Service

/-! ## Silos at their first occurrence -/

theorem filter_distinct (p : SiloId → Bool) (l : List Silo) :
    (distinct l).filter (fun s => p s.id) = distinct (l.filter fun s => p s.id) := by
  induction l with
  | nil => rfl
  | cons s rest ih =>
    have hcomm : ((distinct rest).filter fun t => t.id ≠ s.id).filter (fun t => p t.id) =
        ((distinct rest).filter fun t => p t.id).filter fun t => t.id ≠ s.id := by
      rw [List.filter_filter, List.filter_filter]
      simp only [Bool.and_comm]
    by_cases hs : p s.id = true
    · rw [distinct, List.filter_cons, List.filter_cons, if_pos hs, if_pos hs, distinct, hcomm, ih]
    · have hrest : ((distinct rest).filter fun t => p t.id).filter (fun t => t.id ≠ s.id) =
          (distinct rest).filter fun t => p t.id := by
        rw [List.filter_eq_self]
        intro t ht
        have hp := (List.mem_filter.mp ht).2
        simp only [decide_eq_true_eq]
        rintro heq
        rw [heq] at hp
        exact hs hp
      rw [distinct, List.filter_cons, List.filter_cons, if_neg hs, if_neg hs, hcomm, hrest, ih]

/-- Distinct silos have different identities. -/
theorem pairwise_distinct (l : List Silo) : (distinct l).Pairwise fun a b => a.id ≠ b.id := by
  induction l with
  | nil => exact List.Pairwise.nil
  | cons s rest ih =>
    refine List.pairwise_cons.mpr ⟨?_, ih.filter _⟩
    intro t ht
    have hne := (List.mem_filter.mp ht).2
    simp only [decide_eq_true_eq] at hne
    exact hne.symm

/-- Every silo of a list has the identity of exactly one distinct one. -/
theorem exists_mem_distinct {l : List Silo} {s : Silo} (h : s ∈ l) :
    ∃ o ∈ distinct l, o.id = s.id := by
  induction l with
  | nil => cases h
  | cons t rest ih =>
    by_cases hst : t.id = s.id
    · exact ⟨t, List.mem_cons_self, hst⟩
    · rcases List.mem_cons.mp h with rfl | h
      · exact absurd rfl hst
      · obtain ⟨o, ho, hid⟩ := ih h
        refine ⟨o, List.mem_cons_of_mem t (List.mem_filter.mpr ⟨ho, ?_⟩), hid⟩
        simp only [decide_eq_true_eq]
        rw [hid]
        exact fun hs => hst hs.symm

/-- A distinct silo is the first of its identity. -/
theorem filter_id_eq_cons {l : List Silo} {o : Silo} (h : o ∈ distinct l) :
    ∃ t, l.filter (fun s => s.id = o.id) = o :: t := by
  induction l with
  | nil => cases h
  | cons s rest ih =>
    rcases List.mem_cons.mp h with rfl | h
    · exact ⟨rest.filter fun t => t.id = o.id, by simp⟩
    · obtain ⟨hmem, hne⟩ := List.mem_filter.mp h
      obtain ⟨t, ht⟩ := ih hmem
      refine ⟨t, ?_⟩
      simp only [decide_eq_true_eq] at hne
      rw [List.filter_cons_of_neg (by simpa using fun hs => hne hs.symm), ht]

theorem mem_of_mem_distinct {l : List Silo} {o : Silo} (h : o ∈ distinct l) : o ∈ l := by
  obtain ⟨t, ht⟩ := filter_id_eq_cons h
  have ho : o ∈ l.filter fun s => s.id = o.id := by
    rw [ht]
    exact List.mem_cons_self
  exact (List.mem_filter.mp ho).1

/-- Blocks of silos, each headed by the silo whose identity its members share, have the heads as their
distinct silos. -/
theorem distinct_flatMap {heads : List Silo} (hheads : heads.Pairwise fun a b => a.id ≠ b.id)
    {block : Silo → List Silo}
    (hblock : ∀ o ∈ heads, ∃ t, block o = o :: t ∧ ∀ s ∈ t, s.id = o.id) :
    distinct (heads.flatMap block) = heads := by
  induction heads with
  | nil => rfl
  | cons o rest ih =>
    obtain ⟨hne, hrest⟩ := List.pairwise_cons.mp hheads
    obtain ⟨t, ht, hids⟩ := hblock o List.mem_cons_self
    have hrestBlock : ∀ o' ∈ rest, ∃ t, block o' = o' :: t ∧ ∀ s ∈ t, s.id = o'.id :=
      fun o' ho' => hblock o' (List.mem_cons_of_mem o ho')
    have hdrop : (t ++ rest.flatMap block).filter (fun s => s.id ≠ o.id) = rest.flatMap block := by
      have hleft : t.filter (fun s => s.id ≠ o.id) = [] := by
        simpa using hids
      have hright : (rest.flatMap block).filter (fun s => s.id ≠ o.id) = rest.flatMap block := by
        rw [List.filter_eq_self]
        intro s hs
        obtain ⟨o', ho', hs'⟩ := List.mem_flatMap.mp hs
        obtain ⟨t', ht', hids'⟩ := hrestBlock o' ho'
        have hid : s.id = o'.id := by
          rw [ht'] at hs'
          rcases List.mem_cons.mp hs' with rfl | hs'
          · rfl
          · exact hids' s hs'
        simpa [hid] using (hne o' ho').symm
      rw [List.filter_append, hleft, hright, List.nil_append]
    rw [List.flatMap_cons, ht, List.cons_append, distinct]
    have hfilter := filter_distinct (fun i => i ≠ o.id) (t ++ rest.flatMap block)
    simp only [decide_not] at hfilter hdrop ⊢
    rw [hfilter, hdrop, ih hrest hrestBlock]

/-! ## Grouping addresses by where they go -/

section Grouping

variable (f : GrainAddress → Option Silo) (addresses : List GrainAddress)

/-- The addresses that go to a silo. -/
def bound (owner : Silo) : List GrainAddress :=
  addresses.filter fun a => (f a).any fun o => o.id = owner.id

variable {f addresses}

theorem mem_bound {owner : Silo} {a : GrainAddress} :
    a ∈ bound f addresses owner ↔ a ∈ addresses ∧ ∃ o, f a = some o ∧ o.id = owner.id := by
  simp [bound, Option.any_eq_true]

/-- The split of resolved addresses in terms of where each goes. -/
theorem ofTargets_map :
    Split.ofTargets (addresses.map fun a => (a, f a)) =
      ⟨addresses.filter fun a => (f a).isNone,
        (distinct (addresses.filterMap f)).map fun owner => (owner, bound f addresses owner)⟩ := by
  simp only [Split.ofTargets, bound, List.filter_map, List.filterMap_map, List.map_map,
    Function.comp_def, List.map_id']

theorem filterMap_bound (owner : Silo) :
    (bound f addresses owner).filterMap f =
      (addresses.filterMap f).filter fun s => s.id = owner.id := by
  rw [bound, List.filterMap_filter, List.filter_filterMap]
  congr 1
  funext a
  cases f a with
  | none => rfl
  | some o =>
    by_cases h : o.id = owner.id <;> simp [h, Option.filter]

/-- What goes away, group by group. -/
def departing (f : GrainAddress → Option Silo) (addresses : List GrainAddress) :
    List GrainAddress :=
  (distinct (addresses.filterMap f)).flatMap (bound f addresses)

theorem distinct_departing :
    distinct ((departing f addresses).filterMap f) = distinct (addresses.filterMap f) := by
  rw [departing, List.filterMap_flatMap]
  refine distinct_flatMap (pairwise_distinct _) fun o ho => ?_
  obtain ⟨t, ht⟩ := filter_id_eq_cons ho
  refine ⟨t, by rw [filterMap_bound, ht], fun s hs => ?_⟩
  have hmem : s ∈ (addresses.filterMap f).filter fun s => s.id = o.id := by
    rw [ht]
    exact List.mem_cons_of_mem o hs
  simpa using (List.mem_filter.mp hmem).2

/-- Among groups for different silos, the addresses that go to one of the silos are its group. -/
theorem filter_flatMap_bound {owners : List Silo}
    (howners : owners.Pairwise fun a b => a.id ≠ b.id) {owner : Silo} (h : owner ∈ owners) :
    (owners.flatMap (bound f addresses)).filter (fun a => (f a).any fun o => o.id = owner.id) =
      bound f addresses owner := by
  have hself (o : Silo) (ho : o.id = owner.id) :
      (bound f addresses o).filter (fun a => (f a).any fun o => o.id = owner.id) =
        bound f addresses o := by
    rw [List.filter_eq_self]
    intro a ha
    rw [← ho]
    exact (List.mem_filter.mp ha).2
  have hother (o : Silo) (ho : o.id ≠ owner.id) :
      (bound f addresses o).filter (fun a => (f a).any fun o => o.id = owner.id) = [] := by
    rw [List.filter_eq_nil_iff]
    intro a ha
    obtain ⟨-, o', hf, hid⟩ := mem_bound.mp ha
    simpa [hf, hid] using ho
  induction owners with
  | nil => cases h
  | cons o rest ih =>
    obtain ⟨hne, hrest⟩ := List.pairwise_cons.mp howners
    rw [List.flatMap_cons, List.filter_append]
    rcases List.mem_cons.mp h with rfl | h
    · have hnone : (rest.flatMap (bound f addresses)).filter
          (fun a => (f a).any fun o => o.id = owner.id) = [] := by
        rw [List.filter_flatMap, List.flatMap_eq_nil_iff]
        exact fun o ho => hother o (hne o ho).symm
      rw [hself owner rfl, hnone, List.append_nil]
    · rw [hother o (hne owner h), List.nil_append, ih hrest h]

theorem bound_departing {owner : Silo} (h : owner ∈ distinct (addresses.filterMap f)) :
    bound f (departing f addresses) owner = bound f addresses owner :=
  filter_flatMap_bound (pairwise_distinct _) h

/-- Groups for different silos that leave no silo out hold each occurrence that goes somewhere
once. -/
theorem perm_flatMap_bound {owners : List Silo}
    (howners : owners.Pairwise fun a b => a.id ≠ b.id)
    (hall : ∀ a ∈ addresses, ∀ s, f a = some s → ∃ o ∈ owners, o.id = s.id) :
    (owners.flatMap (bound f addresses)).Perm (addresses.filter fun a => (f a).isSome) := by
  induction owners generalizing addresses with
  | nil =>
    have hnone : (addresses.filter fun a => (f a).isSome) = [] := by
      rw [List.filter_eq_nil_iff]
      intro a ha hsome
      obtain ⟨s, hs⟩ := Option.isSome_iff_exists.mp hsome
      obtain ⟨o, ho, -⟩ := hall a ha s hs
      cases ho
    rw [hnone]
    exact List.Perm.refl _
  | cons o rest ih =>
    obtain ⟨hne, hrest⟩ := List.pairwise_cons.mp howners
    -- The first group takes its addresses; the other groups share what is left.
    let first : GrainAddress → Bool := fun a => (f a).any fun s => s.id = o.id
    let left := addresses.filter fun a => !first a
    have hothers : rest.flatMap (bound f addresses) = rest.flatMap (bound f left) := by
      refine List.flatMap_congr fun o' ho' => ?_
      rw [bound, bound, List.filter_filter]
      refine List.filter_congr fun a _ => ?_
      cases hf : f a with
      | none => simp
      | some s =>
        by_cases hs : s.id = o'.id
        · have hso : s.id ≠ o.id := fun h => hne o' ho' (h.symm.trans hs)
          simp [first, hf, hs, hs ▸ hso]
        · simp [hs]
    have hleft : ∀ a ∈ left, ∀ s, f a = some s → ∃ o' ∈ rest, o'.id = s.id := by
      intro a ha s hs
      obtain ⟨hmem, hfirst⟩ := List.mem_filter.mp ha
      obtain ⟨o', ho', hid⟩ := hall a hmem s hs
      rcases List.mem_cons.mp ho' with rfl | ho'
      · simp [first, hs, hid] at hfirst
      · exact ⟨o', ho', hid⟩
    have hbound : bound f addresses o = (addresses.filter fun a => (f a).isSome).filter first := by
      rw [bound, List.filter_filter]
      refine List.filter_congr fun a _ => ?_
      cases hf : f a <;> simp [first, hf]
    have hrestSome : (left.filter fun a => (f a).isSome) =
        (addresses.filter fun a => (f a).isSome).filter fun a => !first a := by
      rw [List.filter_filter, List.filter_filter]
      simp only [Bool.and_comm]
    rw [List.flatMap_cons, hothers]
    refine ((ih hrest hleft).append_left _).trans ?_
    rw [hbound, hrestSome]
    exact List.filter_append_perm first _

end Grouping

/-! ## Batches whose owners can be resolved -/

/-- Where an address of a batch goes, if its owner can be resolved and is another silo. -/
def destination? (s : Service) (hop : UInt32) (a : GrainAddress) : Option Silo :=
  match s.resolver.checkForward a.grain hop Operation.unregisterMany.name with
  | .ok target => target
  | .error _ => none

/-- Whether it can be resolved where an address of a batch goes. -/
def Resolves (s : Service) (hop : UInt32) (a : GrainAddress) : Prop :=
  s.resolver.checkForward a.grain hop Operation.unregisterMany.name = .ok (s.destination? hop a)

variable {s : Service} {hop : UInt32} {addresses : List GrainAddress}

theorem resolves_of_checkForward {a : GrainAddress} {target : Option Silo}
    (h : s.resolver.checkForward a.grain hop Operation.unregisterMany.name = .ok target) :
    s.Resolves hop a ∧ s.destination? hop a = target := by
  have hd : s.destination? hop a = target := by rw [destination?, h]
  exact ⟨h.trans (congrArg Except.ok hd.symm), hd⟩

theorem resolveBatch_of_resolves (h : ∀ a ∈ addresses, s.Resolves hop a) :
    s.resolveBatch hop addresses = .ok (addresses.map fun a => (a, s.destination? hop a)) := by
  induction addresses with
  | nil => rfl
  | cons a rest ih =>
    have ha : s.resolver.checkForward a.grain hop Operation.unregisterMany.name =
        .ok (s.destination? hop a) := h a List.mem_cons_self
    have hrest := ih fun b hb => h b (List.mem_cons_of_mem a hb)
    simp only [resolveBatch, ha, hrest, List.map_cons]

theorem resolves_of_resolveBatch {targets : List (GrainAddress × Option Silo)}
    (h : s.resolveBatch hop addresses = .ok targets) : ∀ a ∈ addresses, s.Resolves hop a := by
  induction addresses generalizing targets with
  | nil => intro a ha; cases ha
  | cons b rest ih =>
    rw [resolveBatch] at h
    cases hb : s.resolver.checkForward b.grain hop Operation.unregisterMany.name with
    | error e => rw [hb] at h; cases h
    | ok target =>
      cases hrest : s.resolveBatch hop rest with
      | error e => rw [hb, hrest] at h; cases h
      | ok more =>
        intro a ha
        rcases List.mem_cons.mp ha with rfl | ha
        · exact (resolves_of_checkForward hb).1
        · exact ih hrest a ha

/-- A batch is refused for the first of its addresses that goes nowhere. -/
theorem exists_first_of_resolveBatch_error {e : Error}
    (h : s.resolveBatch hop addresses = .error e) :
    ∃ before a after, addresses = before ++ a :: after ∧ (∀ b ∈ before, s.Resolves hop b) ∧
      s.resolver.checkForward a.grain hop Operation.unregisterMany.name = .error e := by
  induction addresses with
  | nil => cases h
  | cons b rest ih =>
    rw [resolveBatch] at h
    cases hb : s.resolver.checkForward b.grain hop Operation.unregisterMany.name with
    | error e' =>
      rw [hb] at h
      exact ⟨[], b, rest, rfl, nofun,
        hb.trans (congrArg Except.error (Except.error.inj h))⟩
    | ok target =>
      cases hrest : s.resolveBatch hop rest with
      | error e' =>
        rw [hb, hrest] at h
        obtain ⟨before, a, after, hsplit, hbefore, ha⟩ :=
          ih (hrest.trans (congrArg Except.error (Except.error.inj h)))
        refine ⟨b :: before, a, after, congrArg (b :: ·) hsplit, fun d hd => ?_, ha⟩
        rcases List.mem_cons.mp hd with rfl | hd
        · exact (resolves_of_checkForward hb).1
        · exact hbefore d hd
      | ok more => rw [hb, hrest] at h; cases h

theorem split_of_resolves (h : ∀ a ∈ addresses, s.Resolves hop a) :
    s.split hop addresses =
      .ok ⟨addresses.filter fun a => (s.destination? hop a).isNone,
        (distinct (addresses.filterMap (s.destination? hop))).map fun owner =>
          (owner, bound (s.destination? hop) addresses owner)⟩ := by
  simp only [split, resolveBatch_of_resolves h, ofTargets_map]

theorem resolves_of_split {sp : Split} (h : s.split hop addresses = .ok sp) :
    ∀ a ∈ addresses, s.Resolves hop a := by
  unfold split at h
  split at h
  · cases h
  · rename_i targets ht
    exact resolves_of_resolveBatch ht

/-- A split in terms of where each address goes. -/
theorem eq_of_split {sp : Split} (h : s.split hop addresses = .ok sp) :
    sp = ⟨addresses.filter fun a => (s.destination? hop a).isNone,
      (distinct (addresses.filterMap (s.destination? hop))).map fun owner =>
        (owner, bound (s.destination? hop) addresses owner)⟩ := by
  rw [split_of_resolves (resolves_of_split h)] at h
  exact (Except.ok.inj h).symm

theorem exists_first_of_split_error {e : Error} (h : s.split hop addresses = .error e) :
    ∃ before a after, addresses = before ++ a :: after ∧ (∀ b ∈ before, s.Resolves hop b) ∧
      s.resolver.checkForward a.grain hop Operation.unregisterMany.name = .error e := by
  unfold split at h
  split at h
  · rename_i e' he
    exact exists_first_of_resolveBatch_error (he.trans (congrArg Except.error (Except.error.inj h)))
  · cases h

/-- A batch is refused for one of its addresses. -/
theorem exists_of_split_error {e : Error} (h : s.split hop addresses = .error e) :
    ∃ a ∈ addresses,
      s.resolver.checkForward a.grain hop Operation.unregisterMany.name = .error e := by
  obtain ⟨before, a, after, rfl, -, ha⟩ := exists_first_of_split_error h
  exact ⟨a, List.mem_append_right before List.mem_cons_self, ha⟩

/-- The split is the resolver's. -/
theorem split_eq_of_resolver {t : Service} (h : t.resolver = s.resolver) :
    t.split hop addresses = s.split hop addresses := by
  have hbatch : t.resolveBatch hop addresses = s.resolveBatch hop addresses := by
    induction addresses with
    | nil => rfl
    | cons a rest ih => rw [resolveBatch, resolveBatch, h, ih]
  rw [split, split, hbatch]

/-- What stays of a batch resolves to this silo, and nothing else stays. -/
theorem mem_here {sp : Split} (h : s.split hop addresses = .ok sp) {a : GrainAddress} :
    a ∈ sp.here ↔ a ∈ addresses ∧ s.destination? hop a = none := by
  rw [eq_of_split h]
  simp

/-- What is sent to an owner resolves to it. -/
theorem destination?_of_mem_away {sp : Split} (h : s.split hop addresses = .ok sp) {owner : Silo}
    {batch : List GrainAddress} (hb : (owner, batch) ∈ sp.away) {a : GrainAddress} (ha : a ∈ batch) :
    a ∈ addresses ∧ ∃ o, s.destination? hop a = some o ∧ o.id = owner.id := by
  rw [eq_of_split h] at hb
  obtain ⟨o, -, heq⟩ := List.mem_map.mp hb
  cases heq
  exact mem_bound.mp ha

/-- Every owner that is sent something is the very silo that some address sent there resolves to. -/
theorem exists_mem_of_mem_away {sp : Split} (h : s.split hop addresses = .ok sp) {owner : Silo}
    {batch : List GrainAddress} (hb : (owner, batch) ∈ sp.away) :
    ∃ a ∈ batch, s.destination? hop a = some owner := by
  rw [eq_of_split h] at hb
  obtain ⟨o, ho, heq⟩ := List.mem_map.mp hb
  obtain ⟨rfl, rfl⟩ := Prod.mk.inj heq
  obtain ⟨a, ha, hf⟩ := List.mem_filterMap.mp (mem_of_mem_distinct ho)
  exact ⟨a, mem_bound.mpr ⟨ha, o, hf, rfl⟩, hf⟩

/-- What stays and what goes away are the batch, each occurrence once. -/
theorem perm_split {sp : Split} (h : s.split hop addresses = .ok sp) :
    (sp.here ++ sp.pending).Perm addresses := by
  have haway : sp.pending =
      (distinct (addresses.filterMap (s.destination? hop))).flatMap
        (bound (s.destination? hop) addresses) := by
    rw [eq_of_split h, Split.pending, List.flatMap_map]
  have hperm : ((distinct (addresses.filterMap (s.destination? hop))).flatMap
      (bound (s.destination? hop) addresses)).Perm
        (addresses.filter fun a => (s.destination? hop a).isSome) :=
    perm_flatMap_bound (pairwise_distinct _) fun a ha t ht =>
      exists_mem_distinct (List.mem_filterMap.mpr ⟨a, ha, ht⟩)
  rw [haway, eq_of_split h]
  refine (hperm.append_left _).trans ?_
  refine (List.perm_append_comm).trans ?_
  have hnot : (fun a => (s.destination? hop a).isNone) =
      fun a => !(s.destination? hop a).isSome := by
    funext a
    cases s.destination? hop a <;> rfl
  rw [hnot]
  exact List.filter_append_perm _ _

/-- Splitting once more what goes away gives the same groups and nothing that stays. -/
theorem split_pending {sp : Split} (h : s.split hop addresses = .ok sp) :
    s.split hop sp.pending = .ok ⟨[], sp.away⟩ := by
  have hsp := eq_of_split h
  have hpending : sp.pending = departing (s.destination? hop) addresses := by
    rw [hsp, Split.pending, List.flatMap_map]
    rfl
  have hmem : ∀ a ∈ sp.pending, a ∈ addresses ∧ ∃ o, s.destination? hop a = some o := by
    intro a ha
    rw [hpending] at ha
    obtain ⟨o, -, ha⟩ := List.mem_flatMap.mp ha
    obtain ⟨hin, o', ho', -⟩ := mem_bound.mp ha
    exact ⟨hin, o', ho'⟩
  have hstay : (sp.pending.filter fun a => (s.destination? hop a).isNone) = [] := by
    rw [List.filter_eq_nil_iff]
    intro a ha
    obtain ⟨-, o, ho⟩ := hmem a ha
    simp [ho]
  have haway : (distinct (sp.pending.filterMap (s.destination? hop))).map
      (fun owner => (owner, bound (s.destination? hop) sp.pending owner)) = sp.away := by
    rw [hpending, distinct_departing, hsp]
    exact List.map_congr_left fun owner ho => by rw [bound_departing ho]
  rw [split_of_resolves fun a ha => resolves_of_split h a (hmem a ha).1, hstay, haway]

end GrainDirectory.Service

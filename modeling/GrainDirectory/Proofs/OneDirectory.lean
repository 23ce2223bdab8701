import GrainDirectory.Proofs.Forwarding
import GrainDirectory.Proofs.StableCluster
import GrainDirectory.Proofs.Tags
set_option autoImplicit false

/-!
# A stable cluster is one directory

Whoever asks a stable cluster, wherever and in whatever order, is answered as by one partition that
holds everything.  The one difference is in the tags: every partition counts its own insertions, so
the tag that is answered is the number of insertions at the site of the grain, where the single
partition would count those of all grains.

The relation between the two is `Mirrors`: the site of a grain has registered what the single
partition has, but for the count of the tag.  The main statement is `one_directory`.
-/

namespace GrainDirectory

/-! ## One directory -/

/-- A request that comes to a service some time after the one before. -/
structure Demand where
  wait : Nat
  desk : ServiceId
  request : Request

/-- What one partition makes of a request. -/
def Partition.answer (p : Partition) (m : Moment) : Request → Outcome × Partition
  | .single action _ => p.apply m action
  | .batch addresses cause _ => (.done, p.removeAll m.now cause addresses)

/-- The grains for which a request inserts a registration. -/
def Partition.insertions (p : Partition) (o : Oracle) : Request → List GrainId
  | .single (.register address previous) _ =>
    if p.Inserts o address previous then [address.grain.id] else []
  | _ => []

/-- One partition, and the grains that it has inserted registrations for, oldest first. -/
structure Ledger where
  partition : Partition
  inserted : List GrainId

namespace Ledger

/-- Answers a request. -/
def answer (l : Ledger) (m : Moment) (request : Request) : Outcome × Ledger :=
  ((l.partition.answer m request).1,
    ⟨(l.partition.answer m request).2, l.inserted ++ l.partition.insertions m.oracle request⟩)

/-- What a ledger can make of a request: the outcome and the ledger after it. -/
inductive Step (l : Ledger) (m : Moment) : Request → Outcome → Ledger → Prop where
  | inserted {address : GrainAddress} {previous : Option GrainAddress} {hop : UInt32}
      (h : l.partition.Inserts m.oracle address previous) :
      Step l m (.single (.register address previous) hop)
        (.located (l.partition.insert m.now address).1)
        ⟨(l.partition.insert m.now address).2, l.inserted ++ [address.grain.id]⟩
  | kept {address : GrainAddress} {previous : Option GrainAddress} {hop : UInt32}
      (h : ¬ l.partition.Inserts m.oracle address previous) :
      Step l m (.single (.register address previous) hop)
        (.located (l.partition.lookup address.grain)) l
  | removed {address : GrainAddress} {cause : RemovalCause} {hop : UInt32} :
      Step l m (.single (.unregister address cause) hop) .done
        ⟨l.partition.removeAll m.now cause [address], l.inserted⟩
  | removedAll {addresses : List GrainAddress} {cause : RemovalCause} {hop : UInt32} :
      Step l m (.batch addresses cause hop) .done
        ⟨l.partition.removeAll m.now cause addresses, l.inserted⟩
  | found {grain : Grain} {hop : UInt32} :
      Step l m (.single (.lookup grain) hop) (.located (l.partition.lookup grain)) l
  | deleted {grain : Grain} {hop : UInt32} :
      Step l m (.single (.delete grain) hop) .done
        ⟨(l.partition.removeGrain grain).2, l.inserted⟩

/-- Whatever is asked, the answer is one of these. -/
theorem step_answer (l : Ledger) (m : Moment) (request : Request) :
    l.Step m request (l.answer m request).1 (l.answer m request).2 := by
  have hnothing (h : l.partition.insertions m.oracle request = []) :
      l.answer m request =
        ((l.partition.answer m request).1, ⟨(l.partition.answer m request).2, l.inserted⟩) := by
    rw [answer, h, List.append_nil]
  cases request with
  | batch addresses cause hop =>
    rw [hnothing rfl]
    exact .removedAll
  | single action hop =>
    cases action with
    | register address previous =>
      by_cases hinserts : l.partition.Inserts m.oracle address previous
      · simp only [answer, Partition.answer, Partition.apply, Partition.insertions,
          if_pos hinserts, Partition.add_of_inserts _ _ _ hinserts]
        exact .inserted hinserts
      · simp only [answer, Partition.answer, Partition.apply, Partition.insertions,
          if_neg hinserts, Partition.add_of_not_inserts _ _ _ hinserts, List.append_nil]
        exact .kept hinserts
    | unregister address cause =>
      rw [hnothing rfl]
      exact .removed
    | lookup grain =>
      rw [hnothing rfl]
      exact .found
    | delete grain =>
      rw [hnothing rfl]
      exact .deleted

/-- Answers demands one after the other. -/
def answerAll (o : Oracle) : List Demand → Nat → Ledger → List Outcome × Ledger
  | [], _, l => ([], l)
  | d :: rest, clock, l =>
    let r := l.answer ⟨o, clock + d.wait⟩ d.request
    let rs := r.2.answerAll o rest (clock + d.wait)
    (r.1 :: rs.1, rs.2)

/-- What has been inserted is never forgotten. -/
theorem inserted_answerAll (o : Oracle) (demands : List Demand) (clock : Nat) (l : Ledger) :
    ∃ more, (answerAll o demands clock l).2.inserted = l.inserted ++ more := by
  induction demands generalizing clock l with
  | nil => exact ⟨[], (List.append_nil _).symm⟩
  | cons d rest ih =>
    obtain ⟨more, hmore⟩ := ih (clock + d.wait) (l.answer ⟨o, clock + d.wait⟩ d.request).2
    refine ⟨l.partition.insertions o d.request ++ more, ?_⟩
    rw [answerAll, ← List.append_assoc]
    exact hmore

end Ledger

/-- Serves demands one after the other. -/
def Cluster.serveAll : List Demand → Cluster → List Reply × Cluster
  | [], c => ([], c)
  | d :: rest, c =>
    let r := (call d.desk d.request).run (c.elapse d.wait)
    let rs := serveAll rest r.2
    (r.1 :: rs.1, rs.2)

/-- Whether a demand is one of a client, to one of `n` services and about ordinary grains, each of
which has its place. -/
structure Demand.Plain (place : GrainId → UInt32) (n : Nat) (d : Demand) : Prop where
  desk : d.desk < n
  hop : d.request.hop = 0
  ordinary : ∀ g ∈ d.request.errand.grains, g.isSystemTarget = false
  placed : ∀ g ∈ d.request.errand.grains, g.hash = place g.id

instance (place : GrainId → UInt32) (n : Nat) (d : Demand) : Decidable (d.Plain place n) :=
  decidable_of_iff
    (d.desk < n ∧ d.request.hop = 0 ∧ (∀ g ∈ d.request.errand.grains, g.isSystemTarget = false) ∧
      ∀ g ∈ d.request.errand.grains, g.hash = place g.id)
    ⟨fun h => ⟨h.1, h.2.1, h.2.2.1, h.2.2.2⟩, fun h => ⟨h.desk, h.hop, h.ordinary, h.placed⟩⟩

/-! ## Tags -/

section Tags

variable (site : GrainId → ServiceId) (inserted : List GrainId)

/-- The tag that the site of a grain gives a registration which is the `tag`-th of all. -/
def ownTag (id : GrainId) (tag : Int32) : Int32 :=
  Int32.ofNat ((inserted.take tag.toInt.toNat).countP fun id' => site id' = site id)

/-- A registration with the tag of its site. -/
def Registration.retag (r : Registration) : Registration :=
  { r with tag := ownTag site inserted r.grainId r.tag }

/-- An answer with the tag of the site of its grain. -/
def TaggedAddress.retag (t : TaggedAddress) : TaggedAddress :=
  match t.address with
  | .none => t
  | .some a => .found a (ownTag site inserted a.grain.id t.tag)

/-- An outcome with the tag of the site of its grain. -/
def Outcome.retag : Outcome → Outcome
  | .located t => .located (t.retag site inserted)
  | .done => .done

/-- Later insertions do not change a tag. -/
theorem ownTag_append {tag : Int32} (h : tag.toInt.toNat ≤ inserted.length) (more : List GrainId)
    (id : GrainId) : ownTag site (inserted ++ more) id tag = ownTag site inserted id tag := by
  rw [ownTag, ownTag, List.take_append_of_le_length h]

/-- The tag of a registration is the next one of its site. -/
theorem ownTag_insert (id : GrainId) (h : inserted.length + 1 < 2 ^ 31) :
    ownTag site (inserted ++ [id]) id (tagAt inserted.length) =
      tagAt (inserted.countP fun id' => site id' = site id) := by
  have hle := List.countP_le_length (p := fun id' => decide (site id' = site id)) (l := inserted)
  have htag : (tagAt inserted.length).toInt.toNat = inserted.length + 1 := by
    rw [toInt_tagAt]
    omega
  have htake : (inserted ++ [id]).take (inserted.length + 1) = inserted ++ [id] :=
    List.take_of_length_le (by simp)
  have hmin : min ((inserted.countP fun id' => decide (site id' = site id)) + 1) (2 ^ 31 - 1) =
      (inserted.countP fun id' => decide (site id' = site id)) + 1 := by
    omega
  rw [ownTag, htag, htake, List.countP_append, tagAt, hmin]
  simp

end Tags

/-! ## The relation -/

namespace Ledger

/-- Whether the tags of a ledger count its insertions. -/
structure Counts (l : Ledger) : Prop where
  next : l.partition.nextTag = tagAt l.inserted.length
  tag : ∀ id r, l.partition.registration? id = some r → r.tag.toInt.toNat ≤ l.inserted.length

end Ledger

/-- Whether the partition of a site has registered what one partition has for the grains of the site,
under tags of its own. -/
structure Mirrors (site : GrainId → ServiceId) (l : Ledger) (p : Partition) (j : ServiceId) :
    Prop where
  lazyDelay : p.lazyDelay = l.partition.lazyDelay
  watchful : p.watchful = l.partition.watchful
  next : p.nextTag = tagAt (l.inserted.countP fun id => site id = j)
  entries : ∀ id, site id = j → p.registration? id =
    (l.partition.registration? id).map (Registration.retag site l.inserted)

section Steps

variable {site : GrainId → ServiceId} {l : Ledger} {p : Partition} {j : ServiceId}

/-- What a partition answers about a grain of its own is what the one partition answers. -/
theorem Mirrors.lookup (h : Mirrors site l p j) {g : Grain} (hg : site g.id = j) :
    Outcome.located (p.lookup g) =
      (Outcome.located (l.partition.lookup g)).retag site l.inserted := by
  unfold Partition.lookup
  rw [h.entries g.id hg]
  cases l.partition.registration? g.id <;> rfl

theorem Mirrors.inserts_iff (h : Mirrors site l p j) (o : Oracle) {address : GrainAddress}
    (previous : Option GrainAddress) (hg : site address.grain.id = j) :
    p.Inserts o address previous ↔ l.partition.Inserts o address previous := by
  have hreplaceable (existing : GrainAddress) :
      p.Replaceable o existing previous ↔ l.partition.Replaceable o existing previous := by
    rw [Partition.Replaceable, Partition.Replaceable, h.watchful]
  simp only [Partition.Inserts, h.entries _ hg, hreplaceable]
  cases l.partition.registration? address.grain.id with
  | none => simp
  | some r => simp [Registration.retag]

/-- What the one partition inserts later does not change what its registrations are elsewhere. -/
theorem retag_append (hcounts : l.Counts) (id : GrainId) (more : List GrainId) :
    (l.partition.registration? id).map (Registration.retag site (l.inserted ++ more)) =
      (l.partition.registration? id).map (Registration.retag site l.inserted) := by
  cases hr : l.partition.registration? id with
  | none => rfl
  | some r =>
    have htag := ownTag_append site l.inserted (hcounts.tag id r hr) more r.grainId
    simp only [Option.map_some, Registration.retag, htag]

/-- An insertion at the site of its grain. -/
theorem Mirrors.insert (hcounts : l.Counts) (h : Mirrors site l p j) (now : Nat)
    {address : GrainAddress} (hg : site address.grain.id = j)
    (hlt : l.inserted.length + 1 < 2 ^ 31) :
    Outcome.located (p.insert now address).1 =
        (Outcome.located (l.partition.insert now address).1).retag site
          (l.inserted ++ [address.grain.id]) ∧
      Mirrors site ⟨(l.partition.insert now address).2, l.inserted ++ [address.grain.id]⟩
        (p.insert now address).2 j := by
  have htag : ownTag site (l.inserted ++ [address.grain.id]) address.grain.id l.partition.nextTag =
      p.nextTag := by
    rw [hcounts.next, ownTag_insert site l.inserted address.grain.id hlt, h.next, hg]
  refine ⟨?_, h.lazyDelay, h.watchful, ?_, fun id hid => ?_⟩
  · show Outcome.located (.found address p.nextTag) = .located (.found address
      (ownTag site (l.inserted ++ [address.grain.id]) address.grain.id l.partition.nextTag))
    rw [htag]
  · show Partition.tagAfter p.nextTag = _
    rw [h.next, tagAfter_tagAt, List.countP_append]
    simp [hg]
  · rw [Partition.registration?_insert]
    dsimp only
    rw [Partition.registration?_insert]
    split
    · rw [Option.map_some, Registration.retag]
      dsimp only [Registration.grainId]
      rw [htag]
    · rw [retag_append hcounts, h.entries id hid]

/-- An insertion elsewhere. -/
theorem Mirrors.insert_elsewhere (hcounts : l.Counts) (h : Mirrors site l p j) (now : Nat)
    {address : GrainAddress} (hg : site address.grain.id ≠ j) :
    Mirrors site ⟨(l.partition.insert now address).2, l.inserted ++ [address.grain.id]⟩ p j := by
  refine ⟨h.lazyDelay, h.watchful, ?_, fun id hid => ?_⟩
  · rw [h.next, List.countP_append]
    simp [hg]
  · have hne : id ≠ address.grain.id := fun heq => hg (heq ▸ hid)
    dsimp only
    rw [Partition.registration?_insert, if_neg hne, retag_append hcounts, h.entries id hid]

/-- Removals, of which the site has its share. -/
theorem Mirrors.removeAll (h : Mirrors site l p j) (now : Nat) (cause : RemovalCause)
    {addresses portion : List GrainAddress}
    (hportion : ∀ a, site a.grain.id = j → (a ∈ portion ↔ a ∈ addresses)) :
    Mirrors site ⟨l.partition.removeAll now cause addresses, l.inserted⟩
      (p.removeAll now cause portion) j := by
  obtain ⟨hnext, hdelay, hwatch⟩ := p.settings_removeAll now cause portion
  obtain ⟨-, hdelay', hwatch'⟩ := l.partition.settings_removeAll now cause addresses
  refine ⟨?_, ?_, ?_, fun id hid => ?_⟩
  · rw [hdelay, h.lazyDelay, hdelay']
  · rw [hwatch, h.watchful, hwatch']
  · rw [hnext, h.next]
  · dsimp only
    rw [Partition.registration?_removeAll, Partition.registration?_removeAll, h.entries id hid]
    cases hr : l.partition.registration? id with
    | none => rfl
    | some r =>
      have hgrain : r.grainId = id := Partition.registration?_grainId hr
      -- Only addresses of this site can take a registration of this site.
      have htakes (a : GrainAddress) :
          p.Takes now cause a (r.retag site l.inserted) ↔ l.partition.Takes now cause a r := by
        rw [Partition.takes_congr now h.lazyDelay]
        cases cause <;> exact Iff.rfl
      have hall : (∀ a ∈ portion, ¬ p.Takes now cause a (r.retag site l.inserted)) ↔
          ∀ a ∈ addresses, ¬ l.partition.Takes now cause a r := by
        constructor
        · intro hkeep a ha htake
          have hsite : site a.grain.id = j := by
            rw [← htake.1, hgrain]
            exact hid
          exact hkeep a ((hportion a hsite).mpr ha) ((htakes a).mpr htake)
        · intro hkeep a ha htake
          have htake' := (htakes a).mp htake
          have hsite : site a.grain.id = j := by
            rw [← htake'.1, hgrain]
            exact hid
          exact hkeep a ((hportion a hsite).mp ha) htake'
      by_cases hkeep : ∀ a ∈ addresses, ¬ l.partition.Takes now cause a r
      · have hkeep' := hall.mpr hkeep
        simp only [Option.map_some, Option.filter_some, decide_eq_true_eq, if_pos hkeep,
          if_pos hkeep']
      · have hkeep' := fun hmine => hkeep (hall.mp hmine)
        simp only [Option.map_some, Option.filter_some, decide_eq_true_eq, if_neg hkeep,
          if_neg hkeep', Option.map_none]

/-- The removal of whatever is registered for a grain of the site. -/
theorem Mirrors.removeGrain (h : Mirrors site l p j) (g : Grain) :
    Mirrors site ⟨(l.partition.removeGrain g).2, l.inserted⟩ (p.removeGrain g).2 j := by
  obtain ⟨hnext, hdelay, hwatch⟩ := p.settings_removeGrain g
  obtain ⟨-, hdelay', hwatch'⟩ := l.partition.settings_removeGrain g
  refine ⟨?_, ?_, ?_, fun id hid => ?_⟩
  · rw [hdelay, h.lazyDelay, hdelay']
  · rw [hwatch, h.watchful, hwatch']
  · rw [hnext, h.next]
  · dsimp only
    rw [Partition.registration?_removeGrain, Partition.registration?_removeGrain]
    split
    · rfl
    · exact h.entries id hid

/-- The removal of whatever is registered for a grain elsewhere. -/
theorem Mirrors.removeGrain_elsewhere (h : Mirrors site l p j) {g : Grain} (hg : site g.id ≠ j) :
    Mirrors site ⟨(l.partition.removeGrain g).2, l.inserted⟩ p j := by
  obtain ⟨-, hdelay, hwatch⟩ := l.partition.settings_removeGrain g
  refine ⟨h.lazyDelay.trans hdelay.symm, h.watchful.trans hwatch.symm, h.next, fun id hid => ?_⟩
  have hne : id ≠ g.id := fun heq => hg (heq ▸ hid)
  dsimp only
  rw [Partition.registration?_removeGrain, if_neg hne, h.entries id hid]

/-- What the site of a grain makes of an action. -/
theorem Mirrors.apply (hcounts : l.Counts) (h : Mirrors site l p j) {m : Moment} {action : Action}
    {hop : UInt32} {outcome : Outcome} {l' : Ledger} (hstep : l.Step m (.single action hop) outcome l')
    (hlt : l'.inserted.length < 2 ^ 31) (hg : site action.grain.id = j) :
    (p.apply m action).1 = outcome.retag site l'.inserted ∧
      Mirrors site l' (p.apply m action).2 j := by
  cases hstep with
  | @inserted address previous _ hinserts =>
    have hlt' : l.inserted.length + 1 < 2 ^ 31 := by simpa using hlt
    have hmine := (h.inserts_iff m.oracle previous hg).mpr hinserts
    rw [Partition.apply, Partition.add_of_inserts p m.oracle m.now hmine]
    exact h.insert hcounts m.now hg hlt'
  | @kept address previous _ hkept =>
    have hmine := fun hin => hkept ((h.inserts_iff m.oracle previous hg).mp hin)
    rw [Partition.apply, Partition.add_of_not_inserts p m.oracle m.now hmine]
    exact ⟨h.lookup hg, h⟩
  | @removed address cause _ =>
    have hremoved : Mirrors site ⟨l.partition.removeAll m.now cause [address], l.inserted⟩
        (p.removeAll m.now cause [address]) j := h.removeAll m.now cause fun _ _ => Iff.rfl
    exact ⟨rfl, hremoved⟩
  | found => exact ⟨h.lookup hg, h⟩
  | @deleted grain _ => exact ⟨rfl, h.removeGrain grain⟩

/-- An action on a grain of another site is none of a site's business. -/
theorem Mirrors.apply_elsewhere (hcounts : l.Counts) (h : Mirrors site l p j) {m : Moment}
    {action : Action} {hop : UInt32} {outcome : Outcome} {l' : Ledger}
    (hstep : l.Step m (.single action hop) outcome l') (hg : site action.grain.id ≠ j) :
    Mirrors site l' p j := by
  cases hstep with
  | inserted _ => exact h.insert_elsewhere hcounts m.now hg
  | kept _ => exact h
  | @removed address cause _ =>
    -- The one removal is a batch of which the site has no share.
    have hremoved : Mirrors site ⟨l.partition.removeAll m.now cause [address], l.inserted⟩
        (p.removeAll m.now cause []) j := by
      refine h.removeAll m.now cause fun a ha => ⟨nofun, fun hmem => ?_⟩
      rw [List.mem_singleton.mp hmem] at ha
      exact absurd ha hg
    exact hremoved
  | found => exact h
  | deleted => exact h.removeGrain_elsewhere hg

/-- The tags of a ledger go on counting its insertions. -/
theorem Ledger.Counts.step (hcounts : l.Counts) {m : Moment} {request : Request}
    {outcome : Outcome} {l' : Ledger} (hstep : l.Step m request outcome l')
    (hlt : l'.inserted.length < 2 ^ 31) : l'.Counts := by
  have hremoved (now : Nat) (cause : RemovalCause) (addresses : List GrainAddress) :
      Ledger.Counts ⟨l.partition.removeAll now cause addresses, l.inserted⟩ := by
    obtain ⟨hnext, -, -⟩ := l.partition.settings_removeAll now cause addresses
    refine ⟨hnext.trans hcounts.next, fun id r hr => ?_⟩
    dsimp only at hr
    rw [Partition.registration?_removeAll, Option.filter_eq_some_iff] at hr
    exact hcounts.tag id r hr.1
  cases hstep with
  | @inserted address previous _ _ =>
    have hlt' : l.inserted.length + 1 < 2 ^ 31 := by simpa using hlt
    have hlength : (l.inserted ++ [address.grain.id]).length = l.inserted.length + 1 := by simp
    refine ⟨?_, fun id r hr => ?_⟩
    · show Partition.tagAfter l.partition.nextTag = _
      rw [hcounts.next, tagAfter_tagAt, hlength]
    · dsimp only at hr ⊢
      rw [Partition.registration?_insert] at hr
      rw [hlength]
      split at hr
      · rw [← Option.some.inj hr]
        show l.partition.nextTag.toInt.toNat ≤ _
        rw [hcounts.next, toInt_tagAt]
        omega
      · exact Nat.le_succ_of_le (hcounts.tag id r hr)
  | kept _ => exact hcounts
  | removed => exact hremoved _ _ _
  | removedAll => exact hremoved _ _ _
  | found => exact hcounts
  | @deleted grain _ =>
    obtain ⟨hnext, -, -⟩ := l.partition.settings_removeGrain grain
    refine ⟨hnext.trans hcounts.next, fun id r hr => ?_⟩
    dsimp only at hr
    rw [Partition.registration?_removeGrain] at hr
    split at hr
    · cases hr
    · exact hcounts.tag id r hr

/-- What has been answered keeps its tag. -/
theorem Ledger.Counts.retag_append (hcounts : l.Counts) {m : Moment} {request : Request}
    {outcome : Outcome} {l' : Ledger} (hstep : l.Step m request outcome l')
    (hlt : l'.inserted.length < 2 ^ 31) (more : List GrainId) :
    outcome.retag site (l'.inserted ++ more) = outcome.retag site l'.inserted := by
  have hlookup (g : Grain) :
      (Outcome.located (l.partition.lookup g)).retag site (l.inserted ++ more) =
        (Outcome.located (l.partition.lookup g)).retag site l.inserted := by
    unfold Partition.lookup
    cases hr : l.partition.registration? g.id with
    | none => rfl
    | some r =>
      have htag := ownTag_append site l.inserted (hcounts.tag g.id r hr) more r.grainId
      exact congrArg (fun tag => Outcome.located (.found r.address tag)) htag
  cases hstep with
  | @inserted address previous _ _ =>
    have hlength : (l.inserted ++ [address.grain.id]).length = l.inserted.length + 1 := by simp
    have hnext : l.partition.nextTag.toInt.toNat ≤ (l.inserted ++ [address.grain.id]).length := by
      rw [hcounts.next, toInt_tagAt, hlength]
      omega
    have htag := ownTag_append site _ hnext more address.grain.id
    exact congrArg (fun tag => Outcome.located (.found address tag)) htag
  | @kept address previous _ _ => exact hlookup address.grain
  | removed => rfl
  | removedAll => rfl
  | @found grain _ => exact hlookup grain
  | deleted => rfl

end Steps

/-! ## Clusters -/

namespace Cluster

/-- The service that a grain at its place belongs to. -/
def seat (c : Cluster) (ring : Ring) (place : GrainId → UInt32) (id : GrainId) : ServiceId :=
  c.site ring (place id).toInt32

/-- Whether a stable cluster has registered what a ledger has. -/
structure Refines (c : Cluster) (ring : Ring) (place : GrainId → UInt32) (l : Ledger) : Prop where
  stable : Stable c ring
  counts : l.Counts
  mirrors : ∀ j < c.services.length, Mirrors (c.seat ring place) l (c.service j).partition j

section Runs

variable {c : Cluster} {ring : Ring} {place : GrainId → UInt32} {l : Ledger}

theorem seat_eq_of_outline {c' : Cluster} (h : c'.outline = c.outline) :
    c'.seat ring place = c.seat ring place :=
  funext fun _ => site_eq_of_outline h ring _

/-- Time alone changes no registrations. -/
theorem Refines.elapse (h : Refines c ring place l) (time : Nat) :
    Refines (c.elapse time) ring place l :=
  ⟨h.stable.elapse time, h.counts, h.mirrors⟩

/-- A call of an action is answered, and leaves the cluster, as the ledger would have it. -/
theorem Refines.call_action (h : Refines c ring place l) {i : ServiceId}
    (hi : i < c.services.length) {action : Action}
    (hordinary : action.grain.isSystemTarget = false)
    (hplaced : action.grain.hash = place action.grain.id) {outcome : Outcome} {l' : Ledger}
    (hstep : l.Step c.moment (.single action 0) outcome l')
    (hlt : l'.inserted.length < 2 ^ 31) :
    ((call i (.single action 0)).run c).1 =
        .ok (outcome.retag (c.seat ring place) l'.inserted) ∧
      Refines ((call i (.single action 0)).run c).2 ring place l' := by
  have hkeep : ((call i (.single action 0)).run c).2.outline = c.outline :=
    keeps_perform maxForwards i _ c
  have hseat : ((call i (.single action 0)).run c).2.seat ring place = c.seat ring place :=
    seat_eq_of_outline hkeep
  have hhere : c.site ring action.grain.position = c.seat ring place action.grain.id := by
    rw [seat, Grain.position, hplaced]
  obtain ⟨hreply, hpartitions⟩ := h.stable.call_action hi hordinary
  have hlast := (h.stable.owner?_eq (Nat.zero_lt_of_lt hi) action.grain.position).1
  rw [hhere] at hreply hpartitions hlast
  refine ⟨?_, h.stable.of_outline hkeep, h.counts.step hstep hlt, fun j hj => ?_⟩
  · rw [hreply, ((h.mirrors _ hlast).apply h.counts hstep hlt rfl).1]
  · rw [length_eq_of_outline hkeep] at hj
    rw [hseat, hpartitions j]
    split
    · rename_i hsite
      exact ((h.mirrors j hj).apply h.counts hstep hlt hsite.symm).2
    · rename_i hsite
      exact (h.mirrors j hj).apply_elsewhere h.counts hstep (Ne.symm hsite)

/-- So is a call of a batch. -/
theorem Refines.call_batch (h : Refines c ring place l) {i : ServiceId}
    (hi : i < c.services.length) {addresses : List GrainAddress} {cause : RemovalCause}
    (hordinary : ∀ a ∈ addresses, a.grain.isSystemTarget = false)
    (hplaced : ∀ a ∈ addresses, a.grain.hash = place a.grain.id) {outcome : Outcome} {l' : Ledger}
    (hstep : l.Step c.moment (.batch addresses cause 0) outcome l')
    (hlt : l'.inserted.length < 2 ^ 31) :
    ((call i (.batch addresses cause 0)).run c).1 =
        .ok (outcome.retag (c.seat ring place) l'.inserted) ∧
      Refines ((call i (.batch addresses cause 0)).run c).2 ring place l' := by
  have hcounts := h.counts.step hstep hlt
  have hkeep : ((call i (.batch addresses cause 0)).run c).2.outline = c.outline :=
    keeps_perform maxForwards i _ c
  have hseat : ((call i (.batch addresses cause 0)).run c).2.seat ring place = c.seat ring place :=
    seat_eq_of_outline hkeep
  have hhere (a : GrainAddress) (ha : a ∈ addresses) :
      c.site ring a.grain.position = c.seat ring place a.grain.id := by
    rw [seat, Grain.position, hplaced a ha]
  obtain ⟨hreply, log, hperm, hsites, hpartitions⟩ := h.stable.call_batch hi hordinary cause
  cases hstep
  refine ⟨hreply, h.stable.of_outline hkeep, hcounts, fun j hj => ?_⟩
  rw [length_eq_of_outline hkeep] at hj
  rw [hseat, hpartitions j]
  refine (h.mirrors j hj).removeAll c.clock cause fun a ha => ?_
  constructor
  · intro hportion
    obtain ⟨r, hr, rfl⟩ := List.mem_map.mp hportion
    exact hperm.mem_iff.mp (List.mem_map_of_mem (List.mem_filter.mp hr).1)
  · intro hmem
    obtain ⟨r, hr, rfl⟩ := List.mem_map.mp (hperm.mem_iff.mpr hmem)
    have hsite : r.site = j := (hsites r hr).trans ((hhere r.address hmem).trans ha)
    exact List.mem_map_of_mem (List.mem_filter.mpr ⟨hr, decide_eq_true hsite⟩)

/-- What comes of a demand. -/
theorem Refines.demand (h : Refines c ring place l) {d : Demand}
    (hd : d.Plain place c.services.length) {outcome : Outcome} {l' : Ledger}
    (hstep : l.Step ⟨c.oracle, c.clock + d.wait⟩ d.request outcome l')
    (hlt : l'.inserted.length < 2 ^ 31) :
    ∃ c' : Cluster,
      (call d.desk d.request).run (c.elapse d.wait) =
        (.ok (outcome.retag (c.seat ring place) l'.inserted), c') ∧
      Refines c' ring place l' ∧ c'.oracle = c.oracle ∧ c'.clock = c.clock + d.wait ∧
      c'.services.length = c.services.length ∧ c'.seat ring place = c.seat ring place := by
  obtain ⟨hreply, hrefines⟩ :
      ((call d.desk d.request).run (c.elapse d.wait)).1 =
          .ok (outcome.retag (c.seat ring place) l'.inserted) ∧
        Refines ((call d.desk d.request).run (c.elapse d.wait)).2 ring place l' := by
    obtain ⟨wait, desk, request⟩ := d
    have hwaited := h.elapse wait
    cases request with
    | single action hop =>
      obtain rfl : hop = 0 := hd.hop
      have hgrain : action.grain ∈ [action.grain] := List.mem_singleton_self _
      exact hwaited.call_action hd.desk (hd.ordinary _ hgrain) (hd.placed _ hgrain) hstep hlt
    | batch addresses cause hop =>
      obtain rfl : hop = 0 := hd.hop
      exact hwaited.call_batch hd.desk (fun a ha => hd.ordinary _ (List.mem_map_of_mem ha))
        (fun a ha => hd.placed _ (List.mem_map_of_mem ha)) hstep hlt
  have hkeep := keeps_perform maxForwards d.desk d.request (c.elapse d.wait)
  have hmoment := moment_eq_of_outline hkeep
  exact ⟨_, Prod.ext hreply rfl, hrefines, congrArg Moment.oracle hmoment,
    congrArg Moment.now hmoment, (length_eq_of_outline hkeep).trans rfl,
    (seat_eq_of_outline hkeep).trans rfl⟩

/-- A cluster goes on refining a ledger, demand after demand. -/
theorem Refines.serveAll (h : Refines c ring place l) {demands : List Demand}
    (hdemands : ∀ d ∈ demands, d.Plain place c.services.length) {outcomes : List Outcome}
    {l' : Ledger} (hanswers : l.answerAll c.oracle demands c.clock = (outcomes, l'))
    (hlt : l'.inserted.length < 2 ^ 31) :
    (Cluster.serveAll demands c).1 =
        outcomes.map (fun o => .ok (o.retag (c.seat ring place) l'.inserted)) ∧
      Refines (Cluster.serveAll demands c).2 ring place l' := by
  induction demands generalizing c l outcomes with
  | nil =>
    obtain ⟨rfl, rfl⟩ := Prod.mk.inj hanswers
    exact ⟨rfl, h⟩
  | cons d rest ih =>
    have hstep := l.step_answer ⟨c.oracle, c.clock + d.wait⟩ d.request
    rw [Ledger.answerAll] at hanswers
    generalize l.answer ⟨c.oracle, c.clock + d.wait⟩ d.request = r at hstep hanswers
    obtain ⟨first, next⟩ := r
    dsimp only at hstep hanswers
    generalize hothers : next.answerAll c.oracle rest (c.clock + d.wait) = rs at hanswers
    obtain ⟨others, final⟩ := rs
    obtain ⟨rfl, rfl⟩ : first :: others = outcomes ∧ final = l' := Prod.mk.inj hanswers
    -- The first tag is read off what is inserted now, all of them off what is inserted in the end.
    obtain ⟨more, hmore⟩ := next.inserted_answerAll c.oracle rest (c.clock + d.wait)
    rw [hothers] at hmore
    dsimp only at hmore
    have hlt' : next.inserted.length < 2 ^ 31 := by
      rw [hmore, List.length_append] at hlt
      omega
    obtain ⟨c', hcall, hrefines, horacle, hclock, hlength, hseat⟩ :=
      h.demand (hdemands d List.mem_cons_self) hstep hlt'
    have hrest : ∀ d' ∈ rest, d'.Plain place c'.services.length := by
      intro d' hd'
      rw [hlength]
      exact hdemands d' (List.mem_cons_of_mem _ hd')
    have hothers' : next.answerAll c'.oracle rest c'.clock = (others, final) := by
      rw [horacle, hclock]
      exact hothers
    obtain ⟨hreplies, hend⟩ := ih hrefines hrest hothers'
    refine ⟨?_, ?_⟩
    · rw [Cluster.serveAll, hcall, List.map_cons, hmore, h.counts.retag_append hstep hlt' more]
      dsimp only
      rw [hreplies, hseat, hmore]
    · rw [Cluster.serveAll, hcall]
      exact hend

/-- A stable cluster is one directory: whatever it is asked, wherever and in whatever order, its
replies are the outcomes of one partition under the tags of the sites, and in the end it has registered
what that partition has. -/
theorem one_directory (hstable : Stable c ring) {lazyDelay : Nat} {watchful : Bool}
    (hempty : ∀ i < c.services.length,
      (c.service i).partition = { lazyDelay := lazyDelay, watchful := watchful })
    {demands : List Demand} (hdemands : ∀ d ∈ demands, d.Plain place c.services.length)
    {outcomes : List Outcome} {final : Ledger}
    (hanswers : Ledger.answerAll c.oracle demands c.clock
      ⟨{ lazyDelay := lazyDelay, watchful := watchful }, []⟩ = (outcomes, final))
    (hfew : final.inserted.length < 2 ^ 31) :
    (Cluster.serveAll demands c).1 =
        outcomes.map (fun o => .ok (o.retag (c.seat ring place) final.inserted)) ∧
      Refines (Cluster.serveAll demands c).2 ring place final := by
  have hone : 1 = tagAt 0 := by decide
  have hcounts : Ledger.Counts ⟨{ lazyDelay := lazyDelay, watchful := watchful }, []⟩ :=
    ⟨hone, fun id r hr => nomatch hr⟩
  refine Refines.serveAll ⟨hstable, hcounts, fun j hj => ?_⟩ hdemands hanswers hfew
  rw [hempty j hj]
  exact ⟨rfl, rfl, hone, fun id _ => rfl⟩

end Runs

/-- Two services that agree about everything, the second at position 2 and the first at position 1. -/
def agreedPair : Cluster :=
  let first : Silo := ⟨⟨.v4 1 1, 1⟩, 1⟩
  let second : Silo := ⟨⟨.v4 1 2, 1⟩, 2⟩
  let ring : Ring := ⟨[first, second]⟩
  { oracle := .ofActive [first, second]
    services := [freshService first ring, freshService second ring]
    routes := (Table.empty.put ⟨first, 0⟩).put ⟨second, 1⟩ }

theorem agreedPair_stable : Stable agreedPair (agreedPair.service 0).ring := by
  refine ⟨by decide, by decide, fun silo => ?_, by decide, by decide, by decide, by decide⟩
  have hhomes : ∀ i < agreedPair.services.length,
      (agreedPair.service i).home ∈ (agreedPair.service 0).ring.silos := by decide
  constructor
  · intro hsilo
    have hmem : silo ∈ [(agreedPair.service 0).home, (agreedPair.service 1).home] := hsilo
    rcases List.mem_pair.mp hmem with rfl | rfl
    · exact ⟨0, by decide, rfl⟩
    · exact ⟨1, by decide, rfl⟩
  · rintro ⟨i, hi, rfl⟩
    exact hhomes i hi

/-- A registration at one service, which the other one finds and a batch removes. -/
def sampleDemands : List Demand :=
  let g : Grain := ⟨⟨⟨"g"⟩, "k"⟩, 2⟩
  let address : GrainAddress := ⟨g, ⟨1⟩, (agreedPair.service 0).home⟩
  [⟨5, 0, .single (.register address none) 0⟩, ⟨0, 1, .single (.lookup g) 0⟩,
    ⟨3, 0, .batch [address] .force 0⟩, ⟨0, 0, .single (.lookup g) 0⟩]

theorem one_directory_agreedPair :
    let final := Ledger.answerAll agreedPair.oracle sampleDemands agreedPair.clock ⟨{ lazyDelay := 0 }, []⟩
    Stable agreedPair (agreedPair.service 0).ring ∧
      (∀ i < agreedPair.services.length,
        (agreedPair.service i).partition = { lazyDelay := 0, watchful := true }) ∧
      (∀ d ∈ sampleDemands, d.Plain (fun _ => 2) agreedPair.services.length) ∧
      final.2.inserted.length < 2 ^ 31 ∧
      (Cluster.serveAll sampleDemands agreedPair).1 = final.1.map (fun o =>
        .ok (o.retag (agreedPair.seat (agreedPair.service 0).ring fun _ => 2) final.2.inserted)) ∧
      Refines (Cluster.serveAll sampleDemands agreedPair).2 (agreedPair.service 0).ring (fun _ => 2)
        final.2 := by
  have hstable := agreedPair_stable
  have hempty : ∀ i < agreedPair.services.length,
      (agreedPair.service i).partition = { lazyDelay := 0, watchful := true } := by
    intro i hi
    have hcases : i = 0 ∨ i = 1 := by
      have hlt : i < 2 := hi
      omega
    rcases hcases with rfl | rfl <;> rfl
  have hplain : ∀ d ∈ sampleDemands, d.Plain (fun _ => 2) agreedPair.services.length := by decide
  have hfew : (Ledger.answerAll agreedPair.oracle sampleDemands agreedPair.clock
      ⟨{ lazyDelay := 0 }, []⟩).2.inserted.length < 2 ^ 31 := by decide
  exact ⟨hstable, hempty, hplain, hfew, one_directory hstable hempty hplain rfl hfew⟩

end Cluster

end GrainDirectory

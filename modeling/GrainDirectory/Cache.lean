import GrainDirectory.Address
import GrainDirectory.Config
import GrainDirectory.Table
set_option autoImplicit false

/-!
# Caches

Where a silo believes grains to be, as it learned from their owners.  Entries are hints: whoever
uses one first asks whether its silo is functional.  A disabled cache stores nothing, and neither
does one without room.

An entry past its time to live is no longer seen, although it stays stored until something removes
or replaces it or the cache is swept.  A cache is swept by whoever uses it: at the first access
after a while, and after a number of reads or of writes.  A cache without a time to live has nothing
to sweep and notes nothing for it.

The entries are kept by a third-party cache, moka, and two things are assumed of it.  How long and for
how many accesses a sweep is good are constants of its housekeeping: 300 ms, and 64 reads or writes
(`Upkeep.interval`, `Upkeep.limit`).  They decide when entries leave the store that are no longer
seen, and so how many an eviction counts.  And a cache that has any room is taken to have enough
(`Cache.ofConfig`), though the real one gives entries up when more are stored than it has room for.
Nothing is proved that depends on an entry staying: what is said of a cache is said of the entries
that it has.

`find?` is the view of a cache at one instant.  The laws at the end say what each operation does to
the view; a sweep in particular does nothing to it.
-/

namespace GrainDirectory

/-- A believed address, the version its owner reported and the time of its storage in
nanoseconds. -/
structure CacheEntry where
  address : GrainAddress
  tag : Int32
  since : Nat
  deriving DecidableEq, Repr

/-- The grain that an entry is about. -/
def CacheEntry.grainId (e : CacheEntry) : GrainId := e.address.grain.id

/-- The accesses that a cache has noted since it was last swept, and the time from which on the next
access sweeps it in any case. -/
structure Upkeep where
  reads : Nat := 0
  writes : Nat := 0
  due : Nat := 0
  deriving DecidableEq, Repr, Inhabited

namespace Upkeep

/-- How long a sweep is good for, in nanoseconds, as the third-party cache has it. -/
def interval : Nat := 300 * millisecond

/-- How many reads, or writes, a sweep is good for, as the third-party cache has it. -/
def limit : Nat := 64

/-- The upkeep of a cache that has nothing to sweep now. -/
def sweptAt (now : Nat) : Upkeep := { due := now + interval }

end Upkeep

/-- The beliefs of a silo. -/
structure Cache where
  kind : CacheKind := .bounded
  timeToLive : Option Nat := none
  entries : Table CacheEntry.grainId := .empty
  upkeep : Upkeep := {}

namespace Cache

instance : Inhabited Cache := ⟨{}⟩

/-- The empty cache of a configuration.  Whether there is any room matters, and how much does not: the
cache is assumed to give no entry up for want of room. -/
def ofConfig (c : CacheConfig) (now : Nat) : Cache where
  kind := if c.capacity = 0 then .disabled else c.kind
  timeToLive := c.timeToLive
  upkeep := .sweptAt now

/-- Whether an entry is still seen. -/
def Fresh (c : Cache) (now : Nat) (e : CacheEntry) : Prop :=
  ∀ life ∈ c.timeToLive, now < e.since + life

instance (c : Cache) (now : Nat) (e : CacheEntry) : Decidable (c.Fresh now e) :=
  match h : c.timeToLive with
  | none => .isTrue (by simp [Fresh, h])
  | some life =>
    if hl : now < e.since + life then .isTrue (by simpa [Fresh, h])
    else .isFalse (by simpa [Fresh, h] using hl)

/-- What is believed of a grain. -/
def find? (c : Cache) (now : Nat) (g : GrainId) : Option CacheEntry :=
  (c.entries.find? g).filter fun e => c.Fresh now e

/-- Everything that is believed. -/
def visible (c : Cache) (now : Nat) : List CacheEntry :=
  c.entries.rows.filter fun e => c.Fresh now e

/-- How many entries are seen. -/
def size (c : Cache) (now : Nat) : Nat := (c.visible now).length

/-- Whether something is stored for a grain, seen or not. -/
def stores (c : Cache) (g : GrainId) : Bool := (c.entries.find? g).isSome

/-! ## Upkeep -/

/-- Removes the entries that are no longer seen, except what is just being stored for a grain. -/
def sweep (c : Cache) (now : Nat) (storing : Option GrainId) : Cache :=
  { c with
    entries := c.entries.filter fun e => c.Fresh now e ∨ some e.grainId = storing
    upkeep := .sweptAt now }

/-- Notes a read, and first sweeps if it is time to. -/
def noteRead (c : Cache) (now : Nat) : Cache :=
  if c.timeToLive = none then c
  else
    let c :=
      if c.upkeep.due ≤ now ∨ Upkeep.limit ≤ c.upkeep.reads then c.sweep now none else c
    { c with upkeep := { c.upkeep with reads := c.upkeep.reads + 1 } }

/-- Notes a write, which may have stored something for a grain, and first sweeps if it is time
to. -/
def noteWrite (c : Cache) (now : Nat) (storing : Option GrainId) : Cache :=
  if c.timeToLive = none then c
  else
    let c :=
      if c.upkeep.due ≤ now ∨ Upkeep.limit ≤ c.upkeep.writes then c.sweep now storing else c
    { c with upkeep := { c.upkeep with writes := c.upkeep.writes + 1 } }

/-! ## Use -/

/-- Stores an address in the place of whatever is stored for its grain. -/
def add (c : Cache) (now : Nat) (address : GrainAddress) (tag : Int32) : Cache :=
  match c.kind with
  | .bounded =>
    { c with entries := c.entries.put ⟨address, tag, now⟩ }.noteWrite now (some address.grain.id)
  | .disabled => c

/-- Removes what is stored for a grain, which is a write if there is something. -/
def remove (c : Cache) (now : Nat) (g : GrainId) : Cache :=
  let rest := { c with entries := c.entries.erase g }
  if c.stores g then rest.noteWrite now none else rest

/-- Whether the cache believes in the same activation of a grain. -/
def Believes (c : Cache) (now : Nat) (address : GrainAddress) : Prop :=
  ∃ e ∈ c.find? now address.grain.id, e.address.Matches address

instance (c : Cache) (now : Nat) (address : GrainAddress) : Decidable (c.Believes now address) :=
  inferInstanceAs (Decidable (∃ e ∈ _, _))

/-- Removes what is stored for a grain if it names the same activation.  That takes a look, and a
write if it does. -/
def removeAddress (c : Cache) (now : Nat) (address : GrainAddress) : Cache :=
  if c.Believes now address then (c.noteRead now).remove now address.grain.id else c.noteRead now

/-- Removes what is stored for some grains, one after the other, and says for how many of them there was
something. -/
def removeEach (now : Nat) : Cache → List GrainId → Nat × Cache
  | c, [] => (0, c)
  | c, g :: rest =>
    let (others, d) := (c.remove now g).removeEach now rest
    (others + (c.stores g).toNat, d)

/-- Removes the entries that pass a test among those that are seen, each by its grain, and says how
many. -/
def evict (c : Cache) (now : Nat) (test : CacheEntry → Bool) : Nat × Cache :=
  c.removeEach now (((c.visible now).filter test).map (·.grainId))

/-- Removes everything. -/
def clear (c : Cache) (now : Nat) : Cache :=
  { c with entries := .empty, upkeep := .sweptAt now }

/-! ## The view -/

theorem find?_eq_some_iff {c : Cache} {now : Nat} {g : GrainId} {e : CacheEntry} :
    c.find? now g = some e ↔ c.entries.find? g = some e ∧ c.Fresh now e := by
  simp [find?, Option.filter_eq_some_iff]

@[simp] theorem find?_sweep (c : Cache) (now : Nat) (storing : Option GrainId) (g : GrainId) :
    (c.sweep now storing).find? now g = c.find? now g := by
  apply Option.ext
  intro e
  have same : (c.sweep now storing).Fresh now e ↔ c.Fresh now e := Iff.rfl
  rw [find?_eq_some_iff, find?_eq_some_iff, same]
  simp only [sweep, Table.find?_filter, Option.filter_eq_some_iff, decide_eq_true_eq]
  exact ⟨fun h => ⟨h.1.1, h.2⟩, fun h => ⟨⟨h.1, .inl h.2⟩, h.2⟩⟩

@[simp] theorem find?_noteRead (c : Cache) (now : Nat) (g : GrainId) :
    (c.noteRead now).find? now g = c.find? now g := by
  unfold noteRead
  split
  · rfl
  · split
    · exact find?_sweep c now none g
    · rfl

@[simp] theorem find?_noteWrite (c : Cache) (now : Nat) (storing : Option GrainId) (g : GrainId) :
    (c.noteWrite now storing).find? now g = c.find? now g := by
  unfold noteWrite
  split
  · rfl
  · split
    · exact find?_sweep c now storing g
    · rfl

theorem noteWrite_of_timeToLive_eq_none {c : Cache} (h : c.timeToLive = none) (now : Nat)
    (storing : Option GrainId) : c.noteWrite now storing = c := if_pos h

theorem find?_add {c : Cache} (h : c.kind = .bounded) (now : Nat) (address : GrainAddress)
    (tag : Int32) (g : GrainId) :
    (c.add now address tag).find? now g =
      if g = address.grain.id then
        (some ⟨address, tag, now⟩ : Option CacheEntry).filter fun e => c.Fresh now e
      else c.find? now g := by
  simp only [add, h, find?_noteWrite]
  show ((c.entries.put ⟨address, tag, now⟩).find? g).filter _ = _
  rw [Table.find?_put]
  show (if g = address.grain.id then _ else _ : Option CacheEntry).filter _ = _
  split <;> rfl

theorem find?_remove (c : Cache) (now : Nat) (g g' : GrainId) :
    (c.remove now g).find? now g' = if g' = g then none else c.find? now g' := by
  have erased : ({ c with entries := c.entries.erase g } : Cache).find? now g' =
      if g' = g then none else c.find? now g' := by
    show ((c.entries.erase g).find? g').filter _ = _
    rw [Table.find?_erase]
    split <;> rfl
  unfold remove
  split
  · rw [find?_noteWrite, erased]
  · exact erased

theorem find?_removeAddress (c : Cache) (now : Nat) (address : GrainAddress) (g : GrainId) :
    (c.removeAddress now address).find? now g =
      if g = address.grain.id ∧ c.Believes now address then none else c.find? now g := by
  unfold removeAddress
  split <;> rename_i h
  · rw [find?_remove, find?_noteRead]
    simp [h]
  · simp [h]

theorem find?_removeEach (c : Cache) (now : Nat) (grains : List GrainId) (g : GrainId) :
    (c.removeEach now grains).2.find? now g = if g ∈ grains then none else c.find? now g := by
  induction grains generalizing c with
  | nil => rfl
  | cons g' rest ih =>
    show ((c.remove now g').removeEach now rest).2.find? now g = _
    rw [ih, find?_remove]
    by_cases hrest : g ∈ rest
    · simp [hrest]
    · by_cases hg : g = g' <;> simp [hrest, hg]

theorem find?_evict (c : Cache) (now : Nat) (test : CacheEntry → Bool) (g : GrainId) :
    (c.evict now test).2.find? now g = (c.find? now g).filter fun e => !test e := by
  have hseen (e : CacheEntry) : e ∈ c.visible now ∧ e.grainId = g ↔ c.find? now g = some e := by
    rw [find?_eq_some_iff, Table.find?_eq_some_iff, visible, List.mem_filter, decide_eq_true_eq]
    exact ⟨fun h => ⟨⟨h.1.1, h.2⟩, h.1.2⟩, fun h => ⟨⟨h.1.1, h.2⟩, h.1.2⟩⟩
  have hlisted : g ∈ ((c.visible now).filter test).map (·.grainId) ↔
      ∃ e, c.find? now g = some e ∧ test e = true := by
    simp only [List.mem_map, List.mem_filter, ← hseen]
    exact exists_congr fun e => ⟨fun h => ⟨⟨h.1.1, h.2⟩, h.1.2⟩, fun h => ⟨⟨h.1.1, h.2⟩, h.1.2⟩⟩
  rw [evict, find?_removeEach]
  cases hfind : c.find? now g with
  | none => simp
  | some e => cases htest : test e <;> simp [hlisted, hfind, htest, Option.filter]

end Cache

end GrainDirectory

set_option autoImplicit false

/-!
# Tables

A table is a list of rows, no two of which share a key.  The key is read off the row, so a row
cannot be filed under another key than its own.  A new row goes to the end, and a row put under a
key that is taken replaces the row that holds it, in its place; listings therefore show rows in the
order in which their keys first came.

`find?` is the view of a table: the laws at the end say what each operation does to it.
-/

namespace GrainDirectory

/-- Rows, no two of which share a key. -/
structure Table {κ ν : Type} (key : ν → κ) where
  rows : List ν
  unique : (rows.map key).Nodup

namespace Table

variable {κ ν : Type} {key : ν → κ}

/-- The table without rows. -/
def empty : Table key := ⟨[], by simp⟩

instance : Inhabited (Table key) := ⟨empty⟩

/-- How many rows there are. -/
def size (t : Table key) : Nat := t.rows.length

/-- The rows that pass a test. -/
def filter (t : Table key) (p : ν → Bool) : Table key :=
  ⟨t.rows.filter p, by
    have h := t.unique
    simp only [List.Nodup, List.pairwise_map] at *
    exact h.filter p⟩

/-- The table with every row changed by a function that keeps its key. -/
def change (t : Table key) (f : ν → ν) (keeps : ∀ v, key (f v) = key v) : Table key :=
  ⟨t.rows.map f, by
    have h : (t.rows.map f).map key = t.rows.map key := by
      simp [List.map_map, Function.comp_def, keeps]
    rw [h]; exact t.unique⟩

theorem filter_filter (t : Table key) (p q : ν → Bool) :
    (t.filter p).filter q = t.filter fun v => q v && p v := by
  simp only [filter, List.filter_filter]

theorem filter_congr {t : Table key} {p q : ν → Bool} (h : ∀ v ∈ t.rows, p v = q v) :
    t.filter p = t.filter q := by
  simp only [filter, List.filter_congr h]

theorem filter_eq_self {t : Table key} {p : ν → Bool} (h : ∀ v ∈ t.rows, p v = true) :
    t.filter p = t := by
  simp only [filter, List.filter_eq_self.mpr h]

section Keyed

variable [DecidableEq κ]

/-- The row under a key. -/
def find? (t : Table key) (k : κ) : Option ν := t.rows.find? fun r => key r = k

/-- Whether there is a row under a key. -/
def contains (t : Table key) (k : κ) : Bool := t.rows.any fun r => key r = k

/-- Takes the row under a key out. -/
def erase (t : Table key) (k : κ) : Table key := t.filter fun r => key r ≠ k

/-- Puts a row under its key. -/
def put (t : Table key) (v : ν) : Table key :=
  if h : t.contains (key v) = true then
    t.change (fun r => if key r = key v then v else r) (by
      intro r
      by_cases hr : key r = key v <;> simp [hr])
  else
    ⟨t.rows ++ [v], by
      have hu := t.unique
      simp only [contains, List.any_eq_true, decide_eq_true_eq, not_exists, not_and] at h
      simp only [List.map_append, List.map_cons, List.map_nil]
      rw [List.nodup_append]
      refine ⟨hu, by simp, ?_⟩
      intro a ha b hb hab
      simp only [List.mem_map] at ha
      obtain ⟨r, hr, rfl⟩ := ha
      simp only [List.mem_singleton] at hb
      exact h r hr (hab.trans hb)⟩

/-! ## The view -/

/-- A row is found exactly when it is there, under its own key. -/
theorem find?_eq_some_iff {t : Table key} {k : κ} {v : ν} :
    t.find? k = some v ↔ v ∈ t.rows ∧ key v = k := by
  constructor
  · intro h
    exact ⟨List.mem_of_find?_eq_some h, by simpa using List.find?_some h⟩
  · rintro ⟨hv, rfl⟩
    have hu := t.unique
    simp only [find?]
    generalize t.rows = rows at hv hu
    induction rows with
    | nil => cases hv
    | cons r rest ih =>
      simp only [List.map_cons, List.nodup_cons, List.mem_map, not_exists, not_and] at hu
      rcases List.mem_cons.mp hv with rfl | hv
      · simp
      · have hne : key r ≠ key v := fun h => hu.1 v hv h.symm
        simp [hne, ih hv hu.2]

theorem contains_eq_isSome (t : Table key) (k : κ) : t.contains k = (t.find? k).isSome := by
  simp only [contains, find?]
  rw [Bool.eq_iff_iff]
  simp

theorem key_of_find? {t : Table key} {k : κ} {v : ν} (h : t.find? k = some v) : key v = k :=
  (find?_eq_some_iff.mp h).2

/-- A row is known by its key. -/
theorem eq_of_key_eq {t : Table key} {v w : ν} (hv : v ∈ t.rows) (hw : w ∈ t.rows)
    (h : key v = key w) : v = w :=
  Option.some.inj ((find?_eq_some_iff.mpr ⟨hv, h⟩).symm.trans (find?_eq_some_iff.mpr ⟨hw, rfl⟩))

theorem filter_notMem_nil (t : Table key) : t.filter (fun v => key v ∉ ([] : List κ)) = t :=
  filter_eq_self fun _ _ => by simp

theorem filter_notMem_erase (t : Table key) (k : κ) (ks : List κ) :
    (t.erase k).filter (fun v => key v ∉ ks) = t.filter fun v => key v ∉ k :: ks := by
  rw [erase, filter_filter]
  simp only [List.mem_cons, not_or, Bool.decide_and, Bool.and_comm, ne_eq]

/-- To leave out the keys of some rows is to leave out these rows. -/
theorem filter_notMem_keys (t : Table key) (p : ν → Bool) :
    t.filter (fun v => key v ∉ (t.rows.filter p).map key) = t.filter fun v => !p v := by
  refine filter_congr fun v hv => ?_
  rw [Bool.eq_iff_iff, decide_eq_true_eq, Bool.not_eq_true', ← Bool.not_eq_true]
  refine not_congr ⟨fun hlisted => ?_, fun hp => List.mem_map_of_mem (List.mem_filter.mpr ⟨hv, hp⟩)⟩
  obtain ⟨w, hw, hkey⟩ := List.mem_map.mp hlisted
  obtain ⟨hmem, hp⟩ := List.mem_filter.mp hw
  rwa [← eq_of_key_eq hmem hv hkey]

@[simp] theorem find?_empty (k : κ) : (empty : Table key).find? k = none := rfl

theorem find?_filter (t : Table key) (p : ν → Bool) (k : κ) :
    (t.filter p).find? k = (t.find? k).filter p := by
  apply Option.ext
  intro v
  rw [find?_eq_some_iff, Option.filter_eq_some_iff, find?_eq_some_iff]
  simp only [filter, List.mem_filter]
  constructor
  · rintro ⟨⟨h1, h2⟩, h3⟩; exact ⟨⟨h1, h3⟩, h2⟩
  · rintro ⟨⟨h1, h3⟩, h2⟩; exact ⟨⟨h1, h2⟩, h3⟩

@[simp] theorem find?_erase (t : Table key) (k k' : κ) :
    (t.erase k).find? k' = if k' = k then none else t.find? k' := by
  rw [erase, find?_filter]
  by_cases h : k' = k
  · subst h
    rw [if_pos rfl]
    cases hf : t.find? k' with
    | none => rfl
    | some v => simp [Option.filter, key_of_find? hf]
  · rw [if_neg h]
    cases hf : t.find? k' with
    | none => rfl
    | some v => simp [Option.filter, key_of_find? hf, h]

theorem find?_change (t : Table key) (f : ν → ν) (keeps : ∀ v, key (f v) = key v) (k : κ) :
    (t.change f keeps).find? k = (t.find? k).map f := by
  simp only [find?, change, List.find?_map, Function.comp_def, keeps]

@[simp] theorem find?_put (t : Table key) (v : ν) (k : κ) :
    (t.put v).find? k = if k = key v then some v else t.find? k := by
  by_cases hc : t.contains (key v) = true
  · rw [put, dif_pos hc, find?_change]
    by_cases hk : k = key v
    · subst hk
      rw [contains_eq_isSome, Option.isSome_iff_exists] at hc
      obtain ⟨w, hw⟩ := hc
      simp [hw, key_of_find? hw]
    · rw [if_neg hk]
      cases hf : t.find? k with
      | none => rfl
      | some w =>
        have hw : key w ≠ key v := by rw [key_of_find? hf]; exact hk
        simp [hw]
  · rw [put, dif_neg hc]
    simp only [find?, List.find?_append]
    rw [contains_eq_isSome] at hc
    simp only [Bool.not_eq_true, Option.isSome_eq_false_iff, Option.isNone_iff_eq_none, find?] at hc
    by_cases hk : k = key v
    · subst hk
      simp [hc]
    · have hk' : ¬ key v = k := fun h => hk h.symm
      simp [hk, hk']

end Keyed

end Table

end GrainDirectory

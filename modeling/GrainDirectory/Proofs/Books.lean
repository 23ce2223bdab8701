import Mathlib.Logic.Function.Basic
import GrainDirectory.Proofs.Evaluation
set_option autoImplicit false

/-!
# What calls write down

The books of a service are its registrations and how many calls of an operation it has served.  Of the
steps of a call only serving writes in them, and it writes what the partition makes of the action.
-/

namespace GrainDirectory

/-- What a partition makes of an action: the outcome and what is registered afterwards. -/
def Partition.apply (p : Partition) (m : Moment) : Action → Outcome × Partition
  | .register address previous =>
    let r := p.add m.oracle m.now address previous
    (.located r.1, r.2)
  | .unregister address cause =>
    (.done, (p.removeActivation m.now address.grain address.activation cause).2)
  | .lookup grain => (.located (p.lookup grain), p)
  | .delete grain => (.done, (p.removeGrain grain).2)

/-- The registrations of a service and how many calls of an operation it has served. -/
structure Books where
  partition : Partition
  served : UInt64

/-- The books once an action has been served. -/
def Books.apply (b : Books) (m : Moment) (action : Action) : Books :=
  ⟨(b.partition.apply m action).2, b.served + 1⟩

namespace Service

/-- The books of a service for an operation. -/
def books (s : Service) (op : Operation) : Books :=
  ⟨s.partition, s.metrics.get (.call op .served)⟩

variable (s : Service) (m : Moment) (op : Operation)

theorem books_eq {p : Partition} {t : Service} (hp : t.partition = p) {n : UInt64}
    (hn : t.metrics.get (.call op .served) = n) : t.books op = ⟨p, n⟩ := by
  rw [books, hp, hn]

theorem get_enter_served (metrics : Metrics) (op' : Operation) (hop : UInt32) :
    (metrics.enter op' hop).get (.call op .served) = metrics.get (.call op .served) := by
  unfold Metrics.enter
  dsimp only
  split
  · rw [Metrics.get_add, if_neg (by simp)]
  · rw [Metrics.get_add, if_neg (by simp), Metrics.get_add, if_neg (by simp)]

/-- Only calls that are served count as served. -/
theorem books_count {meter : Meter} (h : meter ≠ .call op .served) (n : UInt64) :
    (s.count meter n).books op = s.books op := by
  have hget : (s.metrics.add meter n).get (.call op .served) = s.metrics.get (.call op .served) := by
    rw [Metrics.get_add, if_neg h.symm]
  exact books_eq op rfl hget

@[simp] theorem books_enter (op' : Operation) (hop : UInt32) :
    ({ s with metrics := s.metrics.enter op' hop } : Service).books op = s.books op :=
  books_eq op rfl (get_enter_served op s.metrics op' hop)

@[simp] theorem books_accept (action : Action) (hop : UInt32) :
    (s.accept m action hop).books op = s.books op := by
  unfold accept
  split
  · split <;> exact books_eq op rfl (get_enter_served op _ _ _)
  · exact books_eq op rfl (get_enter_served op _ _ _)

@[simp] theorem books_dispatched (action : Action) :
    (s.dispatched m action).books op = s.books op := by
  have hcount : (s.count (.call action.operation .sent) 1).books op = s.books op :=
    s.books_count op (by simp) 1
  cases action with
  | delete grain => exact hcount
  | register address previous => exact hcount
  | unregister address cause => exact hcount
  | lookup grain => exact hcount

@[simp] theorem books_learn (action : Action) (reply : Reply) :
    (s.learn m action reply).books op = s.books op := by
  unfold learn
  split
  · split <;> rfl
  · split
    · split <;> rfl
    · rfl
  · rfl

theorem outcome_serve (action : Action) :
    (s.serve m action).1 = (s.partition.apply m action).1 := by
  cases action <;> rfl

/-- To serve an action is to apply it. -/
theorem books_serve (action : Action) :
    (s.serve m action).2.books action.operation = (s.books action.operation).apply m action := by
  have hget : (s.metrics.add (.call action.operation .served) 1).get
      (.call action.operation .served) = s.metrics.get (.call action.operation .served) + 1 := by
    rw [Metrics.get_add, if_pos rfl]
  cases action with
  | register address previous => exact books_eq _ rfl hget
  | unregister address cause => exact books_eq _ rfl hget
  | lookup grain =>
    unfold serve
    dsimp only
    split
    · rw [books_count _ _ (by simp)]
      exact books_eq _ rfl hget
    · exact books_eq _ rfl hget
  | delete grain => exact books_eq _ rfl hget

/-- To remove an address of a batch is to apply its removal. -/
theorem books_removeHere (cause : RemovalCause) (address : GrainAddress) :
    (s.removeHere m cause address).books .unregisterMany =
      (s.books .unregisterMany).apply m (.unregister address cause) := by
  refine books_eq _ rfl ?_
  show (s.metrics.add (.call .unregisterMany .served) 1).get (.call .unregisterMany .served) = _
  rw [Metrics.get_add, if_pos rfl]
  rfl

theorem books_removeAllHere (cause : RemovalCause) (addresses : List GrainAddress) :
    (s.removeAllHere m cause addresses).books .unregisterMany =
      addresses.foldl (fun b a => b.apply m (.unregister a cause)) (s.books .unregisterMany) := by
  unfold removeAllHere
  induction addresses generalizing s with
  | nil => rfl
  | cons a rest ih => rw [List.foldl_cons, List.foldl_cons, ih, books_removeHere]

/-! ## Caches -/

/-- Whether an action, when it is refused, leaves the caches of those it comes to alone. -/
def Spares (op : Operation) : Prop := op = .register ∨ op = .lookup

theorem cache_accept {action : Action} (h : Spares action.operation) (hop : UInt32) :
    (s.accept m action hop).cache = s.cache := by
  cases action with
  | register address previous => rfl
  | lookup grain => rfl
  | unregister address cause => rcases h with h | h <;> cases h
  | delete grain => rfl

theorem cache_dispatched {action : Action} (h : Spares action.operation) :
    (s.dispatched m action).cache = s.cache := by
  cases action with
  | register address previous => rfl
  | lookup grain => rfl
  | unregister address cause => rfl
  | delete grain => rcases h with h | h <;> cases h

end Service

namespace Cluster

/-- The books of all services for an operation. -/
def books (c : Cluster) (op : Operation) : ServiceId → Books := fun i => (c.service i).books op

/-- The caches of all services. -/
def caches (c : Cluster) : ServiceId → Cache := fun i => (c.service i).cache

variable {c : Cluster} {i : ServiceId} (op : Operation)

theorem service_adjust (c : Cluster) (i j : ServiceId) (f : Service → Service) :
    (c.adjust i f).service j =
      if i = j ∧ j < c.services.length then f (c.service j) else c.service j := by
  by_cases hij : i = j
  · subst hij
    by_cases hi : i < c.services.length
    · rw [service_adjust_self hi, if_pos ⟨rfl, hi⟩]
    · rw [if_neg fun h => hi h.2]
      simp [service, adjust, hi]
  · rw [service_adjust_of_ne c hij, if_neg fun h => hij h.1]

theorem books_adjust {f : Service → Service}
    (h : (f (c.service i)).books op = (c.service i).books op) :
    (c.adjust i f).books op = c.books op := by
  funext j
  rw [books, books, service_adjust]
  split
  · rename_i hij
    rw [← hij.1, h]
  · rfl

theorem books_adjust_self (hi : i < c.services.length) (f : Service → Service) :
    (c.adjust i f).books op = Function.update (c.books op) i ((f (c.service i)).books op) := by
  funext j
  rw [books, service_adjust]
  by_cases hij : j = i
  · subst hij
    rw [if_pos ⟨rfl, hi⟩, Function.update_self]
  · rw [if_neg fun h => hij h.1.symm, Function.update_of_ne hij]
    rfl

theorem caches_adjust {f : Service → Service} (h : (f (c.service i)).cache = (c.service i).cache) :
    (c.adjust i f).caches = c.caches := by
  funext j
  rw [caches, caches, service_adjust]
  split
  · rename_i hij
    rw [← hij.1, h]
  · rfl

@[simp] theorem books_disengage (j : ServiceId) : (c.disengage j).books op = c.books op := rfl

@[simp] theorem caches_disengage (j : ServiceId) : (c.disengage j).caches = c.caches := rfl

@[simp] theorem books_noted (target : Silo) (request : Request) :
    (c.noted target request).books op = c.books op := by
  unfold noted
  split <;> rfl

@[simp] theorem caches_noted (target : Silo) (request : Request) :
    (c.noted target request).caches = c.caches := by
  unfold noted
  split <;> rfl

@[simp] theorem books_accepted (action : Action) (hop : UInt32) :
    (c.accepted i action hop).books op = c.books op := books_adjust op (Service.books_accept _ _ _ _ _)

@[simp] theorem books_dispatched (action : Action) :
    (c.dispatched i action).books op = c.books op := books_adjust op (Service.books_dispatched _ _ _ _)

@[simp] theorem books_learned (action : Action) (reply : Reply) :
    (c.learned i action reply).books op = c.books op := books_adjust op (Service.books_learn _ _ _ _ _)

@[simp] theorem books_entered (hop : UInt32) : (c.entered i hop).books op = c.books op :=
  books_adjust op (Service.books_enter _ _ _ _)

theorem books_served (hi : i < c.services.length) (action : Action) :
    (c.served i action).books action.operation =
      Function.update (c.books action.operation) i
        ((c.books action.operation i).apply c.moment action) := by
  rw [served, books_adjust_self _ hi, Service.books_serve]
  rfl

theorem books_apportioned (hi : i < c.services.length) (cause : RemovalCause)
    (split : Service.Split) :
    (c.apportioned i cause split).books .unregisterMany =
      Function.update (c.books .unregisterMany) i
        (split.here.foldl (fun b a => b.apply c.moment (.unregister a cause))
          (c.books .unregisterMany i)) := by
  rw [apportioned, books_adjust _ (Service.books_count _ _ (by simp) _), books_adjust_self _ hi,
    Service.books_removeAllHere]
  rfl

end Cluster

end GrainDirectory

import GrainDirectory.Proofs.CallInduction
set_option autoImplicit false

/-!
# The way of an action

Where an action goes is decided service by service: each one serves it, refuses it, or forwards it to
the silo that it believes to be the owner, where there may or may not be a service.  A journey is the
way that results.  It depends on the views of the services and the ways between silos alone, so it is
the same journey for everybody who agrees on these, whatever else has happened.
-/

namespace GrainDirectory

namespace Service

variable {s : Service} {o : Oracle} {action : Action} {hop : UInt32}

/-- Whether a service answers for a grain: its own resolver names it, or nobody. -/
def Answers (s : Service) (g : Grain) : Prop :=
  ∃ target, s.owner? g = .ok target ∧ ∀ owner ∈ target, owner.id = s.home.id

theorem answers_iff_of_resolver {t : Service} (h : t.resolver = s.resolver) (g : Grain) :
    t.Answers g ↔ s.Answers g := by
  have hhome : t.home = s.home := congrArg Resolver.home h
  rw [Answers, Answers, owner?, owner?, h, hhome]

theorem answers_of_checkForward {g : Grain} {name : String}
    (h : s.resolver.checkForward g hop name = .ok none) : s.Answers g := by
  unfold Resolver.checkForward at h
  split at h
  · cases h
  · rename_i howner
    exact ⟨none, howner, fun _ h => nomatch h⟩
  · rename_i owner howner
    split at h
    · rename_i hid
      refine ⟨some owner, howner, ?_⟩
      rintro _ ⟨⟩
      exact hid
    · split at h <;> cases h

theorem serve_of_owner {g : Grain} (name : String) (hop : UInt32) {target : Option Silo}
    (howner : s.owner? g = .ok target) (hid : ∀ owner ∈ target, owner.id = s.home.id) :
    s.resolver.checkForward g hop name = .ok none := by
  have howner' : s.resolver.owner? g = .ok target := howner
  unfold Resolver.checkForward
  rw [howner']
  cases target with
  | none => rfl
  | some owner =>
    have hhome : owner.id = s.resolver.home.id := hid owner rfl
    dsimp only
    rw [if_pos hhome]

theorem serve_iff_answers : s.verdict o action hop = .serve ↔ s.Answers action.grain := by
  constructor
  · exact fun h => answers_of_checkForward (checkForward_of_serve h)
  · rintro ⟨target, howner, hid⟩
    exact verdict_of_none (serve_of_owner _ hop howner hid)

/-- What a service believes that sends something on. -/
theorem owner_of_checkForward {g : Grain} {name : String} {owner : Silo}
    (h : s.resolver.checkForward g hop name = .ok (some owner)) :
    s.resolver.owner? g = .ok (some owner) ∧ owner.id ≠ s.resolver.home.id ∧
      hop < s.resolver.hopLimit := by
  have hlt := Resolver.hop_lt_of_checkForward h
  unfold Resolver.checkForward at h
  split at h
  · cases h
  · cases h
  · rename_i owner' howner
    split at h
    · cases h
    · rename_i hid
      split at h
      · cases h
      · have heq : owner' = owner := Option.some.inj (Except.ok.inj h)
        rw [← heq]
        exact ⟨howner, hid, hlt⟩

/-- The errors that an action may end with. -/
def Expected (action : Action) (e : Error) : Prop :=
  (∃ text, e = .config text) ∨
    (∃ here owner hop, e = .hopLimitExceeded action.operation.name action.grain here owner hop) ∨
    (∃ silo, e = .unreachable silo) ∨
    (action.operation = .lookup ∧ ∃ here owner, e = .unstableTarget action.grain here owner)

/-- Why a service refuses an action. -/
theorem refuse_cases {e : Error} (h : s.verdict o action hop = .refuse e) :
    (∃ text, e = .config text) ∨
      (∃ owner, s.resolver.owner? action.grain = .ok (some owner) ∧ s.resolver.hopLimit ≤ hop ∧
        e = .hopLimitExceeded action.operation.name action.grain s.home owner hop) ∨
      (action.operation = .lookup ∧ ∃ owner, e = .unstableTarget action.grain s.home owner) := by
  unfold verdict at h
  split at h
  · rename_i e' hcheck
    rw [← Verdict.refuse.inj h]
    unfold Resolver.checkForward at hcheck
    split at hcheck
    · rename_i e'' howner
      unfold Resolver.owner? at howner
      split at howner
      · split at howner
        · rw [← Except.error.inj hcheck, ← Except.error.inj howner]
          exact .inl ⟨_, rfl⟩
        · cases howner
      · cases howner
    · cases hcheck
    · rename_i owner howner
      split at hcheck
      · cases hcheck
      · split at hcheck
        · rename_i hlimit
          rw [← Except.error.inj hcheck]
          exact .inr (.inl ⟨owner, howner, hlimit, rfl⟩)
        · cases hcheck
  · cases h
  · rename_i owner _
    split at h
    · rename_i hlookup
      rw [← Verdict.refuse.inj h]
      exact .inr (.inr ⟨hlookup.1, owner, rfl⟩)
    · cases h

theorem expected_of_refuse {e : Error} (h : s.verdict o action hop = .refuse e) :
    Expected action e := by
  rcases refuse_cases h with hconfig | ⟨owner, -, -, rfl⟩ | ⟨hlookup, owner, rfl⟩
  · exact .inl hconfig
  · exact .inr (.inl ⟨_, _, _, rfl⟩)
  · exact .inr (.inr (.inr ⟨hlookup, _, _, rfl⟩))

/-- A service that refuses an action for its hops says so of itself. -/
theorem hopLimit_of_refuse {name : String} {g : Grain} {here owner : Silo} {count : UInt32}
    (h : s.verdict o action hop = .refuse (.hopLimitExceeded name g here owner count)) :
    name = action.operation.name ∧ g = action.grain ∧ here = s.home ∧
      s.resolver.owner? action.grain = .ok (some owner) ∧ count = hop ∧
      s.resolver.hopLimit ≤ hop := by
  rcases refuse_cases h with ⟨text, he⟩ | ⟨owner', howner, hlimit, he⟩ | ⟨-, owner', he⟩
  · cases he
  · cases he
    exact ⟨rfl, rfl, rfl, howner, rfl, hlimit⟩
  · cases he

/-- Where something about a grain is forwarded does not depend on what it is. -/
theorem checkForward_transfer {r : Resolver} {g g' : Grain} {name name' : String} {owner : Silo}
    (hgrain : g' = g) (h : r.checkForward g hop name = .ok (some owner)) :
    r.checkForward g' hop name' = .ok (some owner) := by
  subst hgrain
  unfold Resolver.checkForward at h ⊢
  split at h
  · cases h
  · cases h
  · split at h
    · cases h
    · rename_i hid
      rw [if_neg hid]
      split at h
      · cases h
      · rename_i hlimit
        rw [if_neg hlimit, Option.some.inj (Except.ok.inj h)]

theorem forward_of_checkForward {owner : Silo} (hlookup : action.operation ≠ .lookup)
    (h : s.resolver.checkForward action.grain hop action.operation.name = .ok (some owner)) :
    s.verdict o action hop = .forward owner := by
  rw [verdict, h]
  dsimp only
  rw [if_neg fun hand => hlookup hand.1]

end Service

namespace Cluster

/-! ## Agreement on views and ways -/

/-- Whether two clusters agree on who owns what and on how silos are reached. -/
structure Agrees (c c' : Cluster) : Prop where
  oracle : c'.oracle = c.oracle
  resolver : ∀ i, (c'.service i).resolver = (c.service i).resolver
  reach : ∀ silo, c'.reach? silo = c.reach? silo

namespace Agrees

variable {c c' c'' : Cluster}

theorem symm (h : Agrees c c') : Agrees c' c :=
  ⟨h.oracle.symm, fun i => (h.resolver i).symm, fun silo => (h.reach silo).symm⟩

theorem trans (h : Agrees c c') (h' : Agrees c' c'') : Agrees c c'' :=
  ⟨h'.oracle.trans h.oracle, fun i => (h'.resolver i).trans (h.resolver i),
    fun silo => (h'.reach silo).trans (h.reach silo)⟩

theorem of_outline (h : c'.outline = c.outline) : Agrees c c' where
  oracle := congrArg Moment.oracle (moment_eq_of_outline h)
  resolver := resolver_eq_of_outline h
  reach := reach?_eq_of_outline h

theorem elapse (c : Cluster) (time : Nat) : Agrees c (c.elapse time) :=
  ⟨rfl, fun _ => rfl, fun _ => rfl⟩

/-- That one more call is under way at a service matters only if nobody else holds it. -/
theorem engage {j : ServiceId} (hj : c.Live j) : Agrees c (c.engage j) where
  oracle := rfl
  resolver := fun _ => rfl
  reach := fun silo => by
    have hlive (k : ServiceId) : (c.engage j).Live k ↔ c.Live k := by
      rw [live_engage_iff]
      constructor
      · rintro (h | ⟨-, rfl⟩)
        · exact h
        · exact hj
      · exact .inl
    have hroutes : (c.engage j).routes = c.routes := rfl
    simp only [reach?, hroutes, hlive]

/-- A service that a request has come to sees what its sender saw. -/
theorem arrived {target : Silo} {j : ServiceId} (hj : c.reach? target = some j) (request : Request) :
    Agrees c ((c.noted target request).engage j) := by
  refine (of_outline (outline_noted target request)).trans (engage ?_)
  rw [live_iff_of_outline (outline_noted target request)]
  exact live_of_reach? hj

theorem verdict (h : Agrees c c') (i : ServiceId) (action : Action) (hop : UInt32) :
    (c'.service i).verdict c'.oracle action hop = (c.service i).verdict c.oracle action hop := by
  rw [h.oracle]
  exact Service.verdict_eq_of_resolver (h.resolver i) c.oracle action hop

end Agrees

/-! ## Journeys -/

/-- The journey of an action that has come to a service after some hops: the services that forward it,
the service where it ends, and the error it ends with unless it is served. -/
inductive Journey (c : Cluster) (action : Action) :
    ServiceId → UInt32 → List ServiceId → ServiceId → Option Error → Prop where
  | served {i : ServiceId} {hop : UInt32}
      (h : (c.service i).verdict c.oracle action hop = .serve) : Journey c action i hop [] i none
  | refused {i : ServiceId} {hop : UInt32} {e : Error}
      (h : (c.service i).verdict c.oracle action hop = .refuse e) :
      Journey c action i hop [] i (some e)
  | stranded {i : ServiceId} {hop : UInt32} {owner : Silo}
      (h : (c.service i).verdict c.oracle action hop = .forward owner)
      (hnone : c.reach? owner = none) :
      Journey c action i hop [] i (some (.unreachable owner))
  | onward {i j : ServiceId} {hop : UInt32} {owner : Silo} {before : List ServiceId}
      {last : ServiceId} {failure : Option Error}
      (h : (c.service i).verdict c.oracle action hop = .forward owner)
      (hj : c.reach? owner = some j)
      (hrest : Journey c action j (hop + 1) before last failure) :
      Journey c action i hop (i :: before) last failure

namespace Journey

variable {c c' : Cluster} {action : Action} {i last : ServiceId} {hop : UInt32}
  {before : List ServiceId} {failure : Option Error}

/-- Those who agree see the same journeys. -/
theorem congr (h : Agrees c c') (hjourney : Journey c action i hop before last failure) :
    Journey c' action i hop before last failure := by
  induction hjourney with
  | served hv => exact .served ((h.verdict _ _ _).trans hv)
  | refused hv => exact .refused ((h.verdict _ _ _).trans hv)
  | stranded hv hnone => exact .stranded ((h.verdict _ _ _).trans hv) ((h.reach _).trans hnone)
  | onward hv hj _ ih => exact .onward ((h.verdict _ _ _).trans hv) ((h.reach _).trans hj) ih

/-- There is one journey from each service. -/
theorem unique {before' : List ServiceId} {last' : ServiceId} {failure' : Option Error}
    (h : Journey c action i hop before last failure)
    (h' : Journey c action i hop before' last' failure') :
    before' = before ∧ last' = last ∧ failure' = failure := by
  induction h generalizing before' last' failure' with
  | served hv =>
    cases h' with
    | served _ => exact ⟨rfl, rfl, rfl⟩
    | refused hv' => rw [hv] at hv'; cases hv'
    | stranded hv' _ => rw [hv] at hv'; cases hv'
    | onward hv' _ _ => rw [hv] at hv'; cases hv'
  | refused hv =>
    cases h' with
    | served hv' => rw [hv] at hv'; cases hv'
    | refused hv' =>
      rw [hv] at hv'
      cases hv'
      exact ⟨rfl, rfl, rfl⟩
    | stranded hv' _ => rw [hv] at hv'; cases hv'
    | onward hv' _ _ => rw [hv] at hv'; cases hv'
  | stranded hv hnone =>
    cases h' with
    | served hv' => rw [hv] at hv'; cases hv'
    | refused hv' => rw [hv] at hv'; cases hv'
    | stranded hv' _ =>
      rw [hv] at hv'
      cases hv'
      exact ⟨rfl, rfl, rfl⟩
    | onward hv' hj' _ =>
      rw [hv] at hv'
      cases hv'
      rw [hnone] at hj'
      cases hj'
  | onward hv hj _ ih =>
    cases h' with
    | served hv' => rw [hv] at hv'; cases hv'
    | refused hv' => rw [hv] at hv'; cases hv'
    | stranded hv' hnone' =>
      rw [hv] at hv'
      cases hv'
      rw [hj] at hnone'
      cases hnone'
    | onward hv' hj' hrest' =>
      rw [hv] at hv'
      cases hv'
      rw [hj] at hj'
      cases hj'
      obtain ⟨rfl, rfl, rfl⟩ := ih hrest'
      exact ⟨rfl, rfl, rfl⟩

/-- An action that is served in the end goes on to whoever it is forwarded to. -/
theorem of_forward {owner : Silo} (h : Journey c action i hop before last none)
    (hv : (c.service i).verdict c.oracle action hop = .forward owner) :
    ∃ j rest, c.reach? owner = some j ∧ Journey c action j (hop + 1) rest last none := by
  cases h with
  | served hv' =>
    rw [hv] at hv'
    cases hv'
  | onward hv' hj hrest =>
    rw [hv] at hv'
    cases hv'
    exact ⟨_, _, hj, hrest⟩

/-- An action that is served in the end is not refused to begin with. -/
theorem not_refused {e : Error} (h : Journey c action i hop before last none) :
    (c.service i).verdict c.oracle action hop ≠ .refuse e := by
  intro hv
  cases h with
  | served hv' =>
    rw [hv] at hv'
    cases hv'
  | onward hv' _ _ =>
    rw [hv] at hv'
    cases hv'

/-- Nobody who forwards an action answers for its grain. -/
theorem not_answers_of_mem (h : Journey c action i hop before last failure) {k : ServiceId}
    (hk : k ∈ before) : ¬ (c.service k).Answers action.grain := by
  induction h with
  | served _ => cases hk
  | refused _ => cases hk
  | stranded _ _ => cases hk
  | onward hv _ _ ih =>
    rcases List.mem_cons.mp hk with rfl | hk
    · intro hanswers
      rw [Service.serve_iff_answers.mpr hanswers] at hv
      cases hv
    · exact ih hk

/-- An action is served by a service that answers for its grain. -/
theorem answers (h : Journey c action i hop before last none) :
    (c.service last).Answers action.grain := by
  generalize hfailure : (none : Option Error) = failure at h
  induction h with
  | served hv => exact Service.serve_iff_answers.mp hv
  | refused _ => cases hfailure
  | stranded _ _ => cases hfailure
  | onward _ _ _ ih => exact ih hfailure

theorem expected {e : Error} (h : Journey c action i hop before last (some e)) :
    Service.Expected action e := by
  generalize hfailure : some e = failure at h
  induction h with
  | served _ => cases hfailure
  | refused hv =>
    cases hfailure
    exact Service.expected_of_refuse hv
  | stranded _ _ =>
    cases hfailure
    exact .inr (.inr (.inl ⟨_, rfl⟩))
  | onward _ _ _ ih => exact ih hfailure

/-- A journey stays among the services that are there. -/
theorem last_lt_length (h : Journey c action i hop before last failure)
    (hi : i < c.services.length) : last < c.services.length := by
  induction h with
  | served _ => exact hi
  | refused _ => exact hi
  | stranded _ _ => exact hi
  | onward _ hj _ ih => exact ih (live_of_reach? hj).1

end Journey

end Cluster

end GrainDirectory

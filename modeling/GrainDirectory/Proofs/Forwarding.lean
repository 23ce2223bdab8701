import GrainDirectory.Proofs.AppliedOnce
set_option autoImplicit false

/-!
# Forwarding ends

However the views of the services contradict each other, a call is forwarded only so often as its hops
are away from the hop limit.  The forwards that it causes form a forest: below each forward stand the
forwards that the service it comes to makes on its behalf, and beside it those of the same sender.
Each one carries one hop more than the call that it comes from, so the distance to the limit bounds
the length of every path; the forest of an action is a single chain.

The main statement is `forwarding_bounded`.
-/

namespace GrainDirectory

/-! ## Nothing is cut short -/

namespace Cluster

/-- The ending that a run comes to with any number of forwards that suffices. -/
def SameEnding : Ending := fun c i request reply c' =>
  ∀ forwards, c.Suffices forwards request.hop →
    (handle (waysOf forwards) i request).run c = (reply, c')

/-- What a run with enough forwards makes of a request it sends is what becomes of it. -/
theorem SameEnding.run_transmit {c d d' : Cluster} {i : ServiceId} {hop : UInt32}
    {forwards : Nat} {target : Silo} {request : Request} {reply : Reply} (hi : i < c.services.length)
    (hs : c.Suffices forwards hop) (hlt : hop < (c.service i).config.hopLimit)
    (hkeep : d.outline = c.outline) (hhop : request.hop = hop + 1)
    (h : Sent SameEnding d target request reply d') :
    (transmit (waysOf forwards) target request).run d = (reply, d') := by
  have hlt' : hop.toNat < (c.service i).config.hopLimit.toNat := hlt
  cases forwards with
  | zero =>
    have hle := hs i hi
    omega
  | succ forwards =>
    show (transmit (ways (perform forwards)) target request).run d = _
    refine Sent.run_transmit h fun j reply d' _ hend => ?_
    have hnoted : (d.noted target request).outline = c.outline :=
      (outline_noted target request).trans hkeep
    have hsuffices : ((d.noted target request).engage j).Suffices forwards
        (d.wiring.carry request).hop := by
      intro k hk
      have hle := suffices_of_outline hnoted hs k hk
      rw [Wiring.hop_carry, hhop, toNat_hop_add_one hlt]
      show ((d.noted target request).service k).config.hopLimit.toNat ≤ _
      omega
    rw [perform_eq, run_attended, hend forwards hsuffices]

theorem run_transmitAll_of_sentAll {c d d' : Cluster} {i : ServiceId} {cause : RemovalCause}
    {hop : UInt32} {forwards : Nat} {away : List (Silo × List GrainAddress)} {replies : List Reply}
    (hi : i < c.services.length) (hs : c.Suffices forwards hop)
    (hlt : ∀ a ∈ away, hop < (c.service i).config.hopLimit) (hkeep : d.outline = c.outline)
    (h : SentAll SameEnding cause hop d away replies d') :
    (transmitAll (waysOf forwards) cause hop away).run d = (replies, d') := by
  induction h with
  | nil d => rfl
  | cons hstep hfirst _ ih =>
    have hrun := SameEnding.run_transmit hi hs (hlt _ List.mem_cons_self) hkeep rfl hfirst
    have hrest := ih (fun a ha => hlt a (List.mem_cons_of_mem _ ha)) (hstep.trans hkeep)
    rw [run_transmitAll_cons]
    dsimp only
    rw [hrun, hrest]

theorem attended_sameEnding : Attended SameEnding where
  refused := by
    intro c i action hop e _ hverdict forwards _
    show (handleAction _ i action hop).run c = _
    rw [run_handleAction, hverdict]
  served := by
    intro c i action hop _ hverdict forwards _
    show (handleAction _ i action hop).run c = _
    rw [run_handleAction, hverdict]
  forwarded := by
    intro c i action hop owner reply c' hi hverdict _ hsent forwards hs
    have hkeep : ((c.accepted i action hop).dispatched i action).outline = c.outline :=
      (outline_dispatched action).trans (outline_accepted action hop)
    have hrun := SameEnding.run_transmit hi.1 hs (hop_lt_of_forward hverdict) hkeep rfl hsent
    show (handleAction _ i action hop).run c = _
    rw [run_handleAction, hverdict]
    dsimp only
    rw [hrun]
  batchRefused := by
    intro c i addresses cause hop e _ hsplit forwards _
    show (handleBatch _ i addresses cause hop).run c = _
    rw [run_handleBatch (firm_waysOf forwards), hsplit]
  batchSplit := by
    intro c i addresses cause hop split replies c' hi hsplit hsent forwards hs
    have hkeep : ((c.entered i hop).apportioned i cause split).outline = c.outline :=
      (outline_apportioned cause split).trans (outline_entered hop)
    have hs' : c.Suffices forwards hop := hs
    have hrun := run_transmitAll_of_sentAll hi.1 hs' (fun a ha => hop_lt_of_mem_away hsplit ha)
      hkeep hsent
    show (handleBatch _ i addresses cause hop).run c = _
    rw [run_handleBatch (firm_waysOf forwards), hsplit]
    dsimp only
    rw [hrun]

/-- Any number of forwards that suffices is as good as the greatest. -/
theorem run_perform_eq_run_call {c : Cluster} {i : ServiceId} (hi : i < c.services.length)
    (request : Request) {forwards : Nat} (hs : c.Suffices forwards request.hop) :
    (perform forwards i request).run c = (call i request).run c := by
  obtain ⟨reply, c', hrun, -, hend⟩ := attended_sameEnding.call hi request
  rw [hrun, perform_eq, run_attended, hend forwards hs]

end Cluster

/-! ## Forwards -/

theorem Silo.unscoped_unscoped (silo : Silo) : silo.unscoped.unscoped = silo.unscoped := by
  rw [Silo.unscoped, Silo.unscoped, Endpoint.unscoped_unscoped]

theorem Action.operation_unscoped (action : Action) :
    action.unscoped.operation = action.operation := by
  cases action <;> rfl

theorem Action.grain_unscoped (action : Action) : action.unscoped.grain = action.grain := by
  cases action <;> rfl

/-- What is asked, about which grains, and after how many hops. -/
structure Errand where
  operation : Operation
  grains : List Grain
  hop : UInt32

/-- The errand of a request. -/
def Request.errand : Request → Errand
  | .single action hop => ⟨action.operation, [action.grain], hop⟩
  | .batch addresses _ hop => ⟨.unregisterMany, addresses.map (·.grain), hop⟩

theorem Wiring.errand_carry (w : Wiring) (request : Request) :
    (w.carry request).errand = request.errand := by
  cases w with
  | direct => rfl
  | logged => rfl
  | framed =>
    cases request with
    | single action hop => cases action <;> rfl
    | batch addresses cause hop =>
      have hgrain : ((·.grain) ∘ GrainAddress.unscoped) = fun a : GrainAddress => a.grain := rfl
      simp only [Wiring.carry, Request.unscoped, Request.errand, List.map_map, hgrain]

/-- An errand that a service sends on to the silo it believes to be the owner.  It comes to the
service that is reached there; there is none where a script answers. -/
structure Forward where
  sender : ServiceId
  owner : Silo
  target : Option ServiceId
  errand : Errand

/-- The call that a forward is logged as. -/
def Forward.call (f : Forward) : Call := ⟨f.owner, f.errand.operation, f.errand.hop⟩

namespace Cluster

/-- Whether a service that is on an errand may make a forward: it sends on what it was asked, to an
owner that it believes in, with one hop more. -/
structure Sends (c : Cluster) (i : ServiceId) (e : Errand) (f : Forward) : Prop where
  sender : f.sender = i
  operation : f.errand.operation = e.operation
  grains : ∀ g ∈ f.errand.grains, g ∈ e.grains
  hop : f.errand.hop.toNat = e.hop.toNat + 1
  below : e.hop < (c.service i).resolver.hopLimit
  /-- The owner is the one of some grain, and no grain has an owner of another identity. -/
  owner : ∃ g ∈ f.errand.grains, (c.service i).resolver.owner? g = .ok (some f.owner)
  owners : ∀ g ∈ f.errand.grains, ∃ o, (c.service i).resolver.owner? g = .ok (some o) ∧
    o.id = f.owner.id
  away : f.owner.id ≠ (c.service i).resolver.home.id
  target : ∀ j, f.target = some j → c.reach? f.owner = some j

/-- Whether forwards follow each other, each sent on by the service that the one before came to. -/
def Chain (c : Cluster) : ServiceId → Errand → List Forward → Prop
  | _, _, [] => True
  | i, e, f :: rest => Sends c i e f ∧
    match f.target with
    | some j => Chain c j f.errand rest
    | none => rest = []

/-- The service that the last of some forwards came to. -/
def finish : ServiceId → List Forward → Option ServiceId
  | i, [] => some i
  | _, f :: rest =>
    match f.target with
    | some j => finish j rest
    | none => none

end Cluster

/-- Forwards beside each other, each with those below it. -/
inductive Forest where
  | nil
  | cons (f : Forward) (below beside : Forest)

namespace Forest

/-- The forest of forwards that follow each other. -/
def ofChain : List Forward → Forest
  | [] => .nil
  | f :: rest => .cons f (ofChain rest) .nil

/-- The forwards of one forest beside those of another. -/
def append : Forest → Forest → Forest
  | .nil, t => t
  | .cons f below beside, t => .cons f below (beside.append t)

/-- The calls of a forest in the order in which they are made. -/
def calls : Forest → List Call
  | .nil => []
  | .cons f below beside => f.call :: (below.calls ++ beside.calls)

/-- Whether forwards are a way from the top of a forest downwards. -/
def Path : Forest → List Forward → Prop
  | _, [] => True
  | .nil, _ :: _ => False
  | .cons f below beside, g :: path => (g = f ∧ below.Path path) ∨ beside.Path (g :: path)

/-- Whether a forest grows from a service that is on an errand. -/
def Grows (c : Cluster) : ServiceId → Errand → Forest → Prop
  | _, _, .nil => True
  | i, e, .cons f below beside => c.Sends i e f ∧
    (match f.target with
      | some j => below.Grows c j f.errand
      | none => below = .nil) ∧
    beside.Grows c i e

theorem calls_append (t t' : Forest) : (t.append t').calls = t.calls ++ t'.calls := by
  induction t with
  | nil => rfl
  | cons f below beside _ ih =>
    rw [append, calls, calls, ih, List.cons_append, List.append_assoc]

variable {c c' : Cluster} {i : ServiceId} {e : Errand}

theorem grows_append {t t' : Forest} (h : t.Grows c i e) (h' : t'.Grows c i e) :
    (t.append t').Grows c i e := by
  induction t with
  | nil => exact h'
  | cons f below beside _ ih => exact ⟨h.1, h.2.1, ih h.2.2⟩

/-- Every way down a forest is a chain. -/
theorem chain_of_path {t : Forest} (h : t.Grows c i e) {path : List Forward} (hpath : t.Path path) :
    c.Chain i e path := by
  induction t generalizing i e path with
  | nil =>
    cases path with
    | nil => trivial
    | cons g path => exact hpath.elim
  | cons f below beside ihBelow ihBeside =>
    obtain ⟨hsends, hbelow, hbeside⟩ := h
    cases path with
    | nil => trivial
    | cons g path =>
      rcases hpath with ⟨rfl, hpath⟩ | hpath
      · refine ⟨hsends, ?_⟩
        cases htarget : g.target with
        | some j =>
          rw [htarget] at hbelow
          exact ihBelow hbelow hpath
        | none =>
          rw [htarget] at hbelow
          have hnil : below = .nil := hbelow
          rw [hnil] at hpath
          cases path with
          | nil => rfl
          | cons g' path => exact hpath.elim
      · exact ihBeside hbeside hpath

end Forest

namespace Cluster

variable {c : Cluster} {i : ServiceId} {e : Errand}

theorem Sends.congr {c' : Cluster} (h : Agrees c c') {f : Forward} (hsends : c.Sends i e f) :
    c'.Sends i e f where
  sender := hsends.sender
  operation := hsends.operation
  grains := hsends.grains
  hop := hsends.hop
  below := by rw [h.resolver]; exact hsends.below
  owner := by rw [h.resolver]; exact hsends.owner
  owners := by rw [h.resolver]; exact hsends.owners
  away := by rw [h.resolver]; exact hsends.away
  target := fun j hj => (h.reach f.owner).trans (hsends.target j hj)

end Cluster

theorem Forest.Grows.congr {c c' : Cluster} (hagrees : Cluster.Agrees c c') {i : ServiceId}
    {e : Errand} {t : Forest} (h : t.Grows c i e) : t.Grows c' i e := by
  induction t generalizing i e with
  | nil => trivial
  | cons f below beside ihBelow ihBeside =>
    obtain ⟨hsends, hbelow, hbeside⟩ := h
    refine ⟨hsends.congr hagrees, ?_, ihBeside hbeside⟩
    cases htarget : f.target with
    | some j =>
      rw [htarget] at hbelow
      exact ihBelow hbelow
    | none =>
      rw [htarget] at hbelow
      exact hbelow

/-! ## The forwards of a call -/

namespace Cluster

/-- What a cluster logs of calls that are made. -/
def logged (c : Cluster) (calls : List Call) : List Call :=
  match c.wiring with
  | .direct => []
  | _ => calls

theorem logged_nil (c : Cluster) : c.logged [] = [] := by
  unfold logged
  split <;> rfl

theorem logged_append (c : Cluster) (calls calls' : List Call) :
    c.logged (calls ++ calls') = c.logged calls ++ c.logged calls' := by
  unfold logged
  split <;> rfl

theorem logged_congr {c c' : Cluster} (h : c'.wiring = c.wiring) (calls : List Call) :
    c'.logged calls = c.logged calls := by
  rw [logged, logged, h]

theorem calls_noted (c : Cluster) (target : Silo) (request : Request) :
    (c.noted target request).calls =
      c.calls ++ c.logged [⟨target, request.operation, request.hop⟩] := by
  unfold noted logged
  cases c.wiring with
  | direct => exact (List.append_nil _).symm
  | logged => rfl
  | framed => rfl

/-- Whether services alone answer in a cluster. -/
def Unscripted (c : Cluster) : Prop := c.wiring = .framed → c.scripts.rows = []

/-- A silo as it is named by a reply that has come back over some forwards. -/
def seen (c : Cluster) (chain : List Forward) (silo : Silo) : Silo :=
  if c.wiring = .framed ∧ chain ≠ [] then silo.unscoped else silo

/-- Whether a reply that reports an exceeded hop limit names the service that the last forward came
to, the owner that this service believes in, and the hops with which the forward came. -/
def NamesLast (c : Cluster) (i : ServiceId) (action : Action) (hop : UInt32)
    (chain : List Forward) (reply : Reply) : Prop :=
  ∀ name g here owner count, reply = .error (.hopLimitExceeded name g here owner count) →
    ∃ last believed, finish i chain = some last ∧
      name = action.operation.name ∧ g = action.grain ∧
      (c.service last).resolver.owner? g = .ok (some believed) ∧
      here = c.seen chain (c.service last).home ∧ owner = c.seen chain believed ∧
      count.toNat = hop.toNat + chain.length ∧ (c.service last).resolver.hopLimit ≤ count

/-- The ending of calls whose forwards form a forest, and a chain if the call is about one grain. -/
def ForwardEnding : Ending := fun c i request reply c' =>
  ∃ forest : Forest, forest.Grows c i request.errand ∧
    c'.calls = c.calls ++ c.logged forest.calls ∧
    ∀ action hop, request = .single action hop → ∃ chain, forest = .ofChain chain ∧
      (c.Unscripted → NamesLast c i action hop chain reply)

theorem namesLast_of_ne {c : Cluster} {i : ServiceId} {action : Action} {hop : UInt32}
    {chain : List Forward} {reply : Reply}
    (h : ∀ name g here owner count, reply ≠ .error (.hopLimitExceeded name g here owner count)) :
    NamesLast c i action hop chain reply :=
  fun name g here owner count heq => absurd heq (h name g here owner count)

/-- A service that refuses an action for its hops names itself. -/
theorem namesLast_of_refuse {c : Cluster} {i : ServiceId} {action : Action} {hop : UInt32}
    {e : Error} (h : (c.service i).verdict c.oracle action hop = .refuse e) :
    NamesLast c i action hop [] (.error e) := by
  intro name g here owner count heq
  cases heq
  obtain ⟨hname, hg, hhere, howner, hcount, hlimit⟩ := Service.hopLimit_of_refuse h
  have hseen (silo : Silo) : c.seen [] silo = silo := if_neg fun h => h.2 rfl
  subst hname hg hhere hcount
  exact ⟨i, owner, rfl, rfl, rfl, howner, (hseen _).symm, (hseen _).symm, rfl, hlimit⟩

/-- The error of a request that does not fit into a frame. -/
theorem ne_hopLimitExceeded_of_encode {α : Type} {f : Format α} {a : α} {e : Error}
    (h : Frame.encode f a = .error e) (name : String) (g : Grain) (here owner : Silo)
    (count : UInt32) : e ≠ .hopLimitExceeded name g here owner count := by
  unfold Frame.encode at h
  dsimp only at h
  split at h
  · cases h
  · rw [← Except.error.inj h]
    exact nofun

/-- What a frame brings back as an exceeded hop limit was sent as one, but for scopes. -/
theorem hopLimitExceeded_of_bring {op : Operation} {reply : Reply} {name : String} {g : Grain}
    {here owner : Silo} {count : UInt32}
    (h : Wiring.framed.bring op reply = .error (.hopLimitExceeded name g here owner count)) :
    ∃ here' owner', reply = .error (.hopLimitExceeded name g here' owner' count) ∧
      here = here'.unscoped ∧ owner = owner'.unscoped := by
  unfold Wiring.bring at h
  dsimp only at h
  cases hframe : Frame.encode Format.reply reply with
  | error e =>
    rw [hframe] at h
    exact absurd (Except.error.inj h) (ne_hopLimitExceeded_of_encode hframe _ _ _ _ _)
  | ok frame =>
    rw [hframe, Frame.interpret, Frame.decode_encode Format.carries_reply hframe] at h
    cases reply with
    | ok o =>
      simp only [Reply.unscoped, Reply.checked] at h
      split at h
      · cases h
      · cases h
    | error e =>
      simp only [Reply.unscoped, Reply.checked] at h
      have he := Except.error.inj h
      cases e with
      | hopLimitExceeded name' g' here' owner' count' =>
        cases he
        exact ⟨here', owner', rfl, rfl, rfl⟩
      | network cause => cases cause <;> cases he
      | config text => cases he
      | unstableTarget g' here' owner' => cases he
      | remote text => cases he
      | internal text => cases he

/-! ### Every call has its forest -/

/-- A reply that reports an exceeded hop limit reported it before it was brought back, of the silos as
they were seen one forward further on. -/
theorem hopLimitExceeded_before {c : Cluster} {op : Operation} {reply : Reply} {name : String}
    {g : Grain} {here owner : Silo} {count : UInt32}
    (h : c.wiring.bring op reply = .error (.hopLimitExceeded name g here owner count)) (f : Forward)
    (chain : List Forward) :
    ∃ here' owner', reply = .error (.hopLimitExceeded name g here' owner' count) ∧
      (∀ silo, here' = c.seen chain silo → here = c.seen (f :: chain) silo) ∧
      ∀ silo, owner' = c.seen chain silo → owner = c.seen (f :: chain) silo := by
  by_cases hframed : c.wiring = .framed
  · have hseen (silo : Silo) : (c.seen chain silo).unscoped = c.seen (f :: chain) silo := by
      have hforwarded : c.seen (f :: chain) silo = silo.unscoped :=
        if_pos ⟨hframed, List.cons_ne_nil f chain⟩
      rw [hforwarded, seen]
      split
      · exact Silo.unscoped_unscoped silo
      · rfl
    rw [hframed] at h
    obtain ⟨here', owner', rfl, rfl, rfl⟩ := hopLimitExceeded_of_bring h
    refine ⟨here', owner', rfl, fun silo hsilo => ?_, fun silo hsilo => ?_⟩
    · rw [hsilo, hseen]
    · rw [hsilo, hseen]
  · have hplain (chain : List Forward) (silo : Silo) : c.seen chain silo = silo :=
      if_neg fun h => hframed h.1
    rw [Wiring.bring_of_ne_framed hframed] at h
    refine ⟨here, owner, h, fun silo hsilo => ?_, fun silo hsilo => ?_⟩
    · rw [hsilo, hplain, hplain]
    · rw [hsilo, hplain, hplain]

/-- Who reports an exceeded hop limit does not change on the way back over one more forward. -/
theorem NamesLast.over {c d : Cluster} (hagrees : Agrees c d) (hwiring : d.wiring = c.wiring)
    {i j : ServiceId} {action action' : Action} {hop : UInt32} {f : Forward}
    {chain : List Forward} {reply : Reply} (hhop : f.errand.hop.toNat = hop.toNat + 1)
    (htarget : f.target = some j) (hoperation : action'.operation = action.operation)
    (hgrain : action'.grain = action.grain)
    (h : NamesLast d j action' f.errand.hop chain reply) :
    NamesLast c i action hop (f :: chain) (c.wiring.bring action.operation reply) := by
  intro name g here owner count hreply
  obtain ⟨here', owner', hbefore, hshown, hshown'⟩ := hopLimitExceeded_before hreply f chain
  obtain ⟨last, believed, hlast, hname, hg, howner, hhere, howner', hcount, hle⟩ :=
    h _ _ _ _ _ hbefore
  have hfinish : finish i (f :: chain) = finish j chain := by
    rw [finish, htarget]
  have hseen (silo : Silo) : d.seen chain silo = c.seen chain silo := by
    rw [seen, seen, hwiring]
  have hhome : (d.service last).home = (c.service last).home :=
    congrArg Resolver.home (hagrees.resolver last)
  rw [hagrees.resolver] at howner hle
  rw [hseen, hhome] at hhere
  rw [hseen] at howner'
  refine ⟨last, believed, hfinish.trans hlast, hname.trans (congrArg Operation.name hoperation),
    hg.trans hgrain, howner, hshown _ hhere, hshown' _ howner', ?_, hle⟩
  rw [List.length_cons]
  omega

/-- A request that is sent on makes at most one tree of the forest. -/
theorem exists_forest_of_sent {c d d' : Cluster} {i : ServiceId} {e : Errand} {owner : Silo}
    {request : Request} {reply : Reply} (hkeep : d.outline = c.outline)
    (hsends : ∀ target, (∀ j, target = some j → c.reach? owner = some j) →
      c.Sends i e ⟨i, owner, target, request.errand⟩)
    (h : Sent ForwardEnding d owner request reply d') :
    ∃ forest : Forest, forest.Grows c i e ∧ d'.calls = d.calls ++ c.logged forest.calls ∧
      ∀ action hop hop', request = .single action hop' → hop'.toNat = hop.toNat + 1 →
        ∃ chain, forest = .ofChain chain ∧ (c.Unscripted → NamesLast c i action hop chain reply) := by
  have hwiring : d.wiring = c.wiring := wiring_eq_of_outline hkeep
  have hnone (calls : List Call) : calls = calls ++ c.logged Forest.nil.calls := by
    rw [Forest.calls, logged_nil, List.append_nil]
  cases h with
  | oversized _ hframe =>
    refine ⟨.nil, trivial, hnone _, fun action hop hop' _ _ => ⟨[], rfl, fun _ => ?_⟩⟩
    exact namesLast_of_ne fun name g here owner count heq =>
      ne_hopLimitExceeded_of_encode hframe name g here owner count (Except.error.inj heq)
  | unreachable _ _ =>
    refine ⟨.nil, trivial, hnone _, fun action hop hop' _ _ => ⟨[], rfl, fun _ => ?_⟩⟩
    exact namesLast_of_ne nofun
  | @scripted frame script hframed _ hscript =>
    refine ⟨.cons ⟨i, owner, none, request.errand⟩ .nil .nil, ⟨hsends none nofun, rfl, trivial⟩, ?_,
      fun action hop hop' _ _ => ⟨[⟨i, owner, none, request.errand⟩], rfl, fun hun => ?_⟩⟩
    · have hlogged : c.logged [(⟨i, owner, none, request.errand⟩ : Forward).call] =
          [(⟨i, owner, none, request.errand⟩ : Forward).call] := by
        rw [logged, ← hwiring, hframed]
      have hcall : (⟨i, owner, none, request.errand⟩ : Forward).call =
          ⟨owner, request.operation, request.hop⟩ := by
        cases request <;> rfl
      show d.calls ++ _ = d.calls ++ c.logged [_]
      rw [hlogged, hcall]
    · -- Without scripts there is none to answer.
      have hempty : d.scripts.rows = [] := by
        rw [scripts_eq_of_outline hkeep]
        exact hun (hwiring ▸ hframed)
      rw [Table.find?, hempty] at hscript
      cases hscript
  | @reached j reply d'' _ hj _ hend =>
    obtain ⟨below, hgrows, hcalls, hchain⟩ := hend
    have hagrees := (Agrees.of_outline hkeep).trans (Agrees.arrived hj request)
    have hwiring' : ((d.noted owner request).engage j).wiring = c.wiring :=
      (wiring_noted owner request).trans hwiring
    rw [Wiring.errand_carry] at hgrows
    rw [reach?_eq_of_outline hkeep] at hj
    let f : Forward := ⟨i, owner, some j, request.errand⟩
    have hf : c.Sends i e f := hsends (some j) fun k hk => hj.trans hk
    have hcall : f.call = ⟨owner, request.operation, request.hop⟩ := by
      cases request <;> rfl
    refine ⟨.cons f below .nil, ⟨hf, hgrows.congr hagrees.symm, trivial⟩, ?_, ?_⟩
    · show d''.calls = d.calls ++ c.logged (f.call :: (below.calls ++ []))
      rw [hcalls, logged_congr hwiring', List.append_nil, ← List.singleton_append, logged_append,
        hcall, ← List.append_assoc]
      show (d.noted owner request).calls ++ _ = _
      rw [calls_noted, logged_congr hwiring]
    · intro action hop hop' hrequest hstep
      subst hrequest
      have hcarried : d.wiring.carry (.single action hop') =
          .single (if d.wiring = .framed then action.unscoped else action) hop' := by
        cases d.wiring <;> rfl
      obtain ⟨chain, rfl, hnames⟩ := hchain _ _ hcarried
      refine ⟨f :: chain, rfl, fun hun => ?_⟩
      have hun' : ((d.noted owner (.single action hop')).engage j).Unscripted := by
        have hscripts : (d.noted owner (.single action hop')).scripts = c.scripts :=
          scripts_eq_of_outline ((outline_noted owner _).trans hkeep)
        intro hframed
        show (d.noted owner (.single action hop')).scripts.rows = []
        rw [hscripts]
        exact hun (hwiring' ▸ hframed)
      rw [hwiring]
      refine NamesLast.over hagrees hwiring' hstep rfl ?_ ?_ (hnames hun')
      · split
        · exact Action.operation_unscoped action
        · rfl
      · split
        · exact Action.grain_unscoped action
        · rfl

/-- The parts of a batch make their trees side by side. -/
theorem exists_forest_of_sentAll {c d d' : Cluster} {i : ServiceId} {e : Errand}
    {cause : RemovalCause} {hop : UInt32} {away : List (Silo × List GrainAddress)}
    {replies : List Reply} (hkeep : d.outline = c.outline)
    (hsends : ∀ owner batch, (owner, batch) ∈ away → ∀ target,
      (∀ j, target = some j → c.reach? owner = some j) →
      c.Sends i e ⟨i, owner, target, (Request.batch batch cause (hop + 1)).errand⟩)
    (h : SentAll ForwardEnding cause hop d away replies d') :
    ∃ forest : Forest, forest.Grows c i e ∧ d'.calls = d.calls ++ c.logged forest.calls := by
  induction h with
  | nil d =>
    refine ⟨.nil, trivial, ?_⟩
    rw [Forest.calls, logged_nil, List.append_nil]
  | cons hstep hfirst _ ih =>
    obtain ⟨tree, htree, hcalls, -⟩ :=
      exists_forest_of_sent hkeep (hsends _ _ List.mem_cons_self) hfirst
    obtain ⟨forest, hforest, hrest⟩ := ih (hstep.trans hkeep) fun owner batch hb =>
      hsends owner batch (List.mem_cons_of_mem _ hb)
    refine ⟨tree.append forest, Forest.grows_append htree hforest, ?_⟩
    rw [hrest, hcalls, Forest.calls_append, logged_append, List.append_assoc]

theorem sends_of_forward {c : Cluster} {i : ServiceId} {action : Action} {hop : UInt32}
    {owner : Silo} (h : (c.service i).verdict c.oracle action hop = .forward owner)
    (target : Option ServiceId) (htarget : ∀ j, target = some j → c.reach? owner = some j) :
    c.Sends i (Request.single action hop).errand
      ⟨i, owner, target, (Request.single action (hop + 1)).errand⟩ := by
  obtain ⟨howner, hid, hlt⟩ := Service.owner_of_checkForward (Service.checkForward_of_forward h)
  have hall : ∀ g ∈ [action.grain], (c.service i).resolver.owner? g = .ok (some owner) := by
    intro g hg
    rw [List.mem_singleton.mp hg]
    exact howner
  exact ⟨rfl, rfl, fun g hg => hg, toNat_hop_add_one hlt, hlt,
    ⟨action.grain, List.mem_singleton_self _, howner⟩, fun g hg => ⟨owner, hall g hg, rfl⟩, hid,
    htarget⟩

theorem sends_of_mem_away {c : Cluster} {i : ServiceId} {addresses : List GrainAddress}
    {cause : RemovalCause} {hop : UInt32} {split : Service.Split}
    (h : (c.service i).split hop addresses = .ok split) (owner : Silo) (batch : List GrainAddress)
    (hb : (owner, batch) ∈ split.away) (target : Option ServiceId)
    (htarget : ∀ j, target = some j → c.reach? owner = some j) :
    c.Sends i (Request.batch addresses cause hop).errand
      ⟨i, owner, target, (Request.batch batch cause (hop + 1)).errand⟩ := by
  have howners (a : GrainAddress) (ha : a ∈ batch) : a ∈ addresses ∧ ∃ o,
      (c.service i).destination? hop a = some o ∧ o.id = owner.id ∧
      (c.service i).resolver.owner? a.grain = .ok (some o) ∧
      o.id ≠ (c.service i).resolver.home.id ∧ hop < (c.service i).resolver.hopLimit := by
    obtain ⟨hmem, o, ho, hid⟩ := Service.destination?_of_mem_away h hb ha
    have hresolves := Service.resolves_of_split h a hmem
    rw [Service.Resolves, ho] at hresolves
    exact ⟨hmem, o, ho, hid, Service.owner_of_checkForward hresolves⟩
  obtain ⟨a, ha, haowner⟩ := Service.exists_mem_of_mem_away h hb
  obtain ⟨-, o, ho, -, howner, hid, hlt⟩ := howners a ha
  have heq : o = owner := Option.some.inj (ho.symm.trans haowner)
  subst heq
  refine ⟨rfl, rfl, ?_, toNat_hop_add_one hlt, hlt, ⟨a.grain, List.mem_map_of_mem ha, howner⟩, ?_,
    hid, htarget⟩
  · intro g hg
    obtain ⟨b, hbmem, rfl⟩ := List.mem_map.mp hg
    exact List.mem_map_of_mem (howners b hbmem).1
  · intro g hg
    obtain ⟨b, hbmem, rfl⟩ := List.mem_map.mp hg
    obtain ⟨-, o', -, hid', howner', -⟩ := howners b hbmem
    exact ⟨o', howner', hid'⟩

/-- Every call has its forest. -/
theorem attended_forward : Attended ForwardEnding where
  refused := by
    intro c i action hop e _ hverdict
    refine ⟨.nil, trivial, ?_, fun action' hop' heq => ⟨[], rfl, fun _ => ?_⟩⟩
    · rw [Forest.calls, logged_nil, List.append_nil]
      rfl
    · cases heq
      exact namesLast_of_refuse hverdict
  served := by
    intro c i action hop _ _
    refine ⟨.nil, trivial, ?_, fun action' hop' _ => ⟨[], rfl, fun _ => namesLast_of_ne nofun⟩⟩
    rw [Forest.calls, logged_nil, List.append_nil]
    rfl
  forwarded := by
    intro c i action hop owner reply c' _ hverdict _ hsent
    have hkeep : ((c.accepted i action hop).dispatched i action).outline = c.outline :=
      (outline_dispatched action).trans (outline_accepted action hop)
    obtain ⟨forest, hgrows, hcalls, hchain⟩ :=
      exists_forest_of_sent hkeep (sends_of_forward hverdict) hsent
    refine ⟨forest, hgrows, hcalls, fun action' hop' heq => ?_⟩
    cases heq
    exact hchain action hop _ rfl (toNat_hop_add_one (hop_lt_of_forward hverdict))
  batchRefused := by
    intro c i addresses cause hop e _ _
    refine ⟨.nil, trivial, ?_, fun action hop' heq => nomatch heq⟩
    rw [Forest.calls, logged_nil, List.append_nil]
    rfl
  batchSplit := by
    intro c i addresses cause hop split replies c' _ hsplit hsent
    have hkeep : ((c.entered i hop).apportioned i cause split).outline = c.outline :=
      (outline_apportioned cause split).trans (outline_entered hop)
    obtain ⟨forest, hgrows, hcalls⟩ :=
      exists_forest_of_sentAll hkeep (sends_of_mem_away hsplit) hsent
    exact ⟨forest, hgrows, hcalls, fun action hop' heq => nomatch heq⟩

/-! ## Bounds -/

/-- Along a chain the hops grow one by one. -/
theorem Chain.hops {c : Cluster} {i : ServiceId} {e : Errand} {path : List Forward}
    (h : c.Chain i e path) :
    path.map (·.errand.hop.toNat) = List.range' (e.hop.toNat + 1) path.length := by
  induction path generalizing i e with
  | nil => rfl
  | cons f rest ih =>
    obtain ⟨hsends, hrest⟩ := h
    rw [List.map_cons, List.length_cons, List.range'_succ, hsends.hop]
    cases htarget : f.target with
    | some j =>
      rw [htarget] at hrest
      rw [ih hrest, hsends.hop]
    | none =>
      rw [htarget] at hrest
      have hnil : rest = [] := hrest
      rw [hnil]
      rfl

section SharedLimit

variable {c : Cluster} {limit : UInt32}
  (hlimit : ∀ j < c.services.length, (c.service j).config.hopLimit = limit)

include hlimit

/-- The distance to the hop limit bounds a chain. -/
theorem Chain.length_le {i : ServiceId} {e : Errand} {path : List Forward}
    (hi : i < c.services.length) (h : c.Chain i e path) :
    path.length ≤ limit.toNat - e.hop.toNat := by
  induction path generalizing i e with
  | nil => exact Nat.zero_le _
  | cons f rest ih =>
    obtain ⟨hsends, hrest⟩ := h
    have hbelow : e.hop.toNat < limit.toNat := by
      rw [← hlimit i hi]
      exact hsends.below
    have hstep := hsends.hop
    rw [List.length_cons]
    cases htarget : f.target with
    | some j =>
      rw [htarget] at hrest
      have hle := ih (live_of_reach? (hsends.target j htarget)).1 hrest
      omega
    | none =>
      rw [htarget] at hrest
      have hnil : rest = [] := hrest
      rw [hnil, List.length_nil]
      omega

omit hlimit in
theorem Chain.finish_lt_length {i last : ServiceId} {e : Errand} {path : List Forward}
    (hi : i < c.services.length) (h : c.Chain i e path) (hlast : finish i path = some last) :
    last < c.services.length := by
  induction path generalizing i e with
  | nil =>
    rw [← Option.some.inj hlast]
    exact hi
  | cons f rest ih =>
    obtain ⟨hsends, hrest⟩ := h
    cases htarget : f.target with
    | some j =>
      rw [htarget] at hrest
      rw [finish, htarget] at hlast
      exact ih (live_of_reach? (hsends.target j htarget)).1 hrest hlast
    | none =>
      rw [finish, htarget] at hlast
      cases hlast

omit hlimit in
theorem path_ofChain (chain : List Forward) : (Forest.ofChain chain).Path chain := by
  induction chain with
  | nil => trivial
  | cons f rest ih => exact .inl ⟨rfl, ih⟩

/-- The forwards of a call: they are those of a forest, down which every way is a chain that ends at
the hop limit at the latest. -/
structure WellForwarded (c : Cluster) (limit : UInt32) (i : ServiceId) (request : Request)
    (reply : Reply) (c' : Cluster) (forest : Forest) : Prop where
  calls : c'.calls = c.calls ++ c.logged forest.calls
  chains : ∀ path, forest.Path path → Chain (c.engage i) i request.errand path
  hops : ∀ path, forest.Path path →
    path.map (·.errand.hop.toNat) = List.range' (request.hop.toNat + 1) path.length
  bounded : ∀ path, forest.Path path → path.length ≤ limit.toNat - request.hop.toNat
  /-- The forwards of an action are one chain, and if the hop limit is exceeded at its end, this is
  what the reply says. -/
  action : ∀ action hop, request = .single action hop →
    ∃ chain, forest = .ofChain chain ∧ forest.Path chain ∧
      (c.Unscripted → NamesLast (c.engage i) i action hop chain reply ∧
        ∀ name g here owner count,
          reply = .error (.hopLimitExceeded name g here owner count) → limit ≤ count)

/-- No call is forwarded for ever, whatever the services of a cluster believe. -/
theorem forwarding_bounded {i : ServiceId} (hi : i < c.services.length) (request : Request) :
    (∀ forwards, limit.toNat ≤ forwards + request.hop.toNat →
      (perform forwards i request).run c = (call i request).run c) ∧
    ∃ forest, WellForwarded c limit i request ((call i request).run c).1
      ((call i request).run c).2 forest := by
  constructor
  · intro forwards hle
    refine run_perform_eq_run_call hi request fun j hj => ?_
    rw [hlimit j hj]
    exact hle
  · obtain ⟨reply, c', hrun, -, forest, hgrows, hcalls, hchain⟩ := attended_forward.call hi request
    have hlimit' : ∀ j < (c.engage i).services.length,
        ((c.engage i).service j).config.hopLimit = limit := hlimit
    have hi' : i < (c.engage i).services.length := hi
    have hhop : request.errand.hop = request.hop := by
      cases request <;> rfl
    have hchains (path : List Forward) (hpath : forest.Path path) :
        (c.engage i).Chain i request.errand path := Forest.chain_of_path hgrows hpath
    rw [hrun]
    refine ⟨forest, hcalls, hchains, fun path hpath => ?_, fun path hpath => ?_, ?_⟩
    · rw [(hchains path hpath).hops, hhop]
    · have hle := (hchains path hpath).length_le hlimit' hi
      rwa [hhop] at hle
    · intro action hop heq
      obtain ⟨chain, rfl, hnames⟩ := hchain action hop heq
      refine ⟨chain, rfl, path_ofChain chain, fun hun => ⟨hnames hun, ?_⟩⟩
      intro name g here owner count hreply
      obtain ⟨last, _, hlast, -, -, -, -, -, -, hle⟩ := hnames hun _ _ _ _ _ hreply
      have hlt := (hchains chain (path_ofChain chain)).finish_lt_length hi' hlast
      rw [← hlimit' last hlt]
      exact hle

end SharedLimit

theorem forwarding_bounded_mutualOwners :
    (∀ j < mutualOwners.services.length, (mutualOwners.service j).config.hopLimit = 6) ∧
      0 < mutualOwners.services.length ∧
      (∀ forwards, (6 : UInt32).toNat ≤ forwards + (0 : UInt32).toNat →
        (perform forwards 0 (.single (.delete default) 0)).run mutualOwners =
          (call 0 (.single (.delete default) 0)).run mutualOwners) ∧
      ∃ forest, WellForwarded mutualOwners 6 0 (.single (.delete default) 0)
        ((call 0 (.single (.delete default) 0)).run mutualOwners).1
        ((call 0 (.single (.delete default) 0)).run mutualOwners).2 forest :=
  ⟨by decide, by decide, forwarding_bounded (by decide) (by decide) (.single (.delete default) 0)⟩

end Cluster

end GrainDirectory

import GrainDirectory.Proofs.Evaluation
import GrainDirectory.Proofs.Wire.RoundTrip
set_option autoImplicit false

/-!
# Induction over calls

`Sent` says what becomes of a request that is sent to a silo, given what becomes of requests at
services: it is lost, a script answers it, or it comes to a service and the reply is brought back.

The main statements are `Attended.run` and `Attended.call`: whatever holds of every way to handle a
request, given that it holds of the requests that are sent on, holds of every call.  The induction is
on the forwards that are left; a request is forwarded only below the hop limit, so none is ever
refused for want of them.
-/

namespace GrainDirectory

/-! ## What becomes of a request that is sent -/

/-- The request that arrives when one is sent. -/
def Wiring.carry : Wiring → Request → Request
  | .framed, request => request.unscoped
  | _, request => request

/-- The reply that comes back when a call of an operation is answered. -/
def Wiring.bring : Wiring → Operation → Reply → Reply
  | .framed, op, reply => Frame.interpret op (Frame.encode Format.reply reply)
  | _, _, reply => reply

theorem Wiring.hop_carry (w : Wiring) (request : Request) : (w.carry request).hop = request.hop := by
  cases w with
  | framed => cases request <;> rfl
  | direct => rfl
  | logged => rfl

theorem Wiring.carry_of_ne_framed {w : Wiring} (h : w ≠ .framed) (request : Request) :
    w.carry request = request := by
  cases w with
  | framed => exact absurd rfl h
  | direct => rfl
  | logged => rfl

theorem Wiring.bring_of_ne_framed {w : Wiring} (h : w ≠ .framed) (op : Operation) (reply : Reply) :
    w.bring op reply = reply := by
  cases w with
  | framed => exact absurd rfl h
  | direct => rfl
  | logged => rfl

namespace Cluster

theorem live_of_reach? {c : Cluster} {target : Silo} {j : ServiceId} (h : c.reach? target = some j) :
    c.Live j := by
  unfold reach? at h
  split at h
  · split at h
    · rename_i hlive
      rw [← Option.some.inj h]
      exact hlive
    · cases h
  · cases h

/-- A statement about how the handling of a request at a service ends: the reply and the cluster that
is left behind. -/
abbrev Ending := Cluster → ServiceId → Request → Reply → Cluster → Prop

/-- Whether nothing but the target stands between a request and its answer: if it travels in a frame, it
fits into one, and no script answers it. -/
def Clear (c : Cluster) (target : Silo) (request : Request) : Prop :=
  c.wiring = .framed →
    (∃ frame, Frame.encode Format.request request = .ok frame) ∧ c.scripts.find? target.id = none

/-- What becomes of a request that is sent to a silo, where `P` is what becomes of requests at
services. -/
inductive Sent (P : Ending) (c : Cluster) (target : Silo) (request : Request) :
    Reply → Cluster → Prop where
  /-- It is too long for a frame. -/
  | oversized {e : Error} (hframed : c.wiring = .framed)
      (h : Frame.encode Format.request request = .error e) : Sent P c target request (.error e) c
  /-- A script answers it. -/
  | scripted {frame : Bytes} {script : Script} (hframed : c.wiring = .framed)
      (hframe : Frame.encode Format.request request = .ok frame)
      (h : c.scripts.find? target.id = some script) :
      Sent P c target request (Frame.interpret request.operation script.answer)
        (c.log target request)
  /-- There is no way to the silo. -/
  | unreachable (hclear : c.Clear target request) (h : c.reach? target = none) :
      Sent P c target request (.error (.unreachable target)) c
  /-- It comes to the service at the silo. -/
  | reached {j : ServiceId} {reply : Reply} {c' : Cluster} (hclear : c.Clear target request)
      (h : c.reach? target = some j)
      (hkeep : c'.outline = ((c.noted target request).engage j).outline)
      (hend : P ((c.noted target request).engage j) j (c.wiring.carry request) reply c') :
      Sent P c target request (c.wiring.bring request.operation reply) (c'.disengage j)

/-- What becomes of the parts of a batch that are sent one after the other. -/
inductive SentAll (P : Ending) (cause : RemovalCause) (hop : UInt32) :
    Cluster → List (Silo × List GrainAddress) → List Reply → Cluster → Prop where
  | nil (c : Cluster) : SentAll P cause hop c [] [] c
  | cons {c c' c'' : Cluster} {owner : Silo} {batch : List GrainAddress}
      {rest : List (Silo × List GrainAddress)} {reply : Reply} {replies : List Reply}
      (hkeep : c'.outline = c.outline)
      (hfirst : Sent P c owner (.batch batch cause (hop + 1)) reply c')
      (hrest : SentAll P cause hop c' rest replies c'') :
      SentAll P cause hop c ((owner, batch) :: rest) (reply :: replies) c''

/-- Between services that reach each other directly, a request is lost or comes to a service. -/
theorem Sent.of_ne_framed {P : Ending} {c c' : Cluster} {target : Silo} {request : Request}
    {reply : Reply} (hwiring : c.wiring ≠ .framed) (h : Sent P c target request reply c') :
    (c.reach? target = none ∧ reply = .error (.unreachable target) ∧ c' = c) ∨
      ∃ j d, c.reach? target = some j ∧ c' = d.disengage j ∧
        P ((c.noted target request).engage j) j request reply d := by
  cases h with
  | oversized hframed _ => exact absurd hframed hwiring
  | scripted hframed _ _ => exact absurd hframed hwiring
  | unreachable _ hnone => exact .inl ⟨hnone, rfl, rfl⟩
  | @reached j reply d _ hj _ hend =>
    rw [Wiring.carry_of_ne_framed hwiring] at hend
    rw [Wiring.bring_of_ne_framed hwiring]
    exact .inr ⟨j, d, hj, rfl, hend⟩

/-! ### The run of a request that is sent -/

section Transmission

variable (peer : ServiceId → Peer) {c : Cluster} {target : Silo} {request : Request}

theorem run_transmit_oversized {e : Error} (hframed : c.wiring = .framed)
    (h : Frame.encode Format.request request = .error e) :
    (transmit (ways peer) target request).run c = (.error e, c) := by
  have hways : ways peer c target = .ok (callFramed peer target) := by rw [ways, hframed]
  rw [run_transmit, hways]
  dsimp only
  rw [callFramed, h]
  rfl

/-- Over frames, the answer is what the exchange brings. -/
theorem run_transmit_framed {frame : Bytes} (hframed : c.wiring = .framed)
    (hframe : Frame.encode Format.request request = .ok frame) :
    (transmit (ways peer) target request).run c =
      let r := (exchange peer target request frame).run c
      (Frame.interpret request.operation r.1, r.2) := by
  have hways : ways peer c target = .ok (callFramed peer target) := by rw [ways, hframed]
  rw [run_transmit, hways]
  dsimp only
  rw [callFramed, hframe]
  dsimp only
  rw [Activity.run_bind, Activity.run_pure]

theorem run_transmit_scripted {frame : Bytes} {script : Script} (hframed : c.wiring = .framed)
    (hframe : Frame.encode Format.request request = .ok frame)
    (h : c.scripts.find? target.id = some script) :
    (transmit (ways peer) target request).run c =
      (Frame.interpret request.operation script.answer, c.log target request) := by
  rw [run_transmit_framed peer hframed hframe, exchange, Activity.run_bind, Activity.run_look]
  dsimp only
  rw [h]
  rfl

theorem run_transmit_unreachable (hclear : c.Clear target request) (h : c.reach? target = none) :
    (transmit (ways peer) target request).run c = (.error (.unreachable target), c) := by
  cases hw : c.wiring with
  | framed =>
    obtain ⟨⟨frame, hframe⟩, hscript⟩ := hclear hw
    rw [run_transmit_framed peer hw hframe, exchange, Activity.run_bind, Activity.run_look]
    dsimp only
    rw [hscript, h]
    rfl
  | logged => rw [run_transmit, ways, hw, h]
  | direct => rw [run_transmit, ways, hw, h]

/-- The frame of a request is read as the request that it carries. -/
theorem run_serveFrame {frame : Bytes} (hframe : Frame.encode Format.request request = .ok frame)
    (j : ServiceId) (c : Cluster) :
    (serveFrame peer j frame).run c =
      let r := (peer j request.unscoped).run c
      (Frame.encode Format.reply r.1, r.2) := by
  rw [serveFrame, Frame.decode_encode Format.carries_request hframe]
  dsimp only
  rw [Activity.run_bind, Activity.run_pure]

theorem run_transmit_reached (hclear : c.Clear target request) {j : ServiceId}
    (h : c.reach? target = some j) :
    (transmit (ways peer) target request).run c =
      let r := (peer j (c.wiring.carry request)).run (c.noted target request)
      (c.wiring.bring request.operation r.1, r.2) := by
  rw [noted]
  cases hw : c.wiring with
  | framed =>
    obtain ⟨⟨frame, hframe⟩, hscript⟩ := hclear hw
    rw [run_transmit_framed peer hw hframe, exchange, Activity.run_bind, Activity.run_look]
    dsimp only
    rw [hscript, h]
    dsimp only
    rw [Activity.run_bind, Activity.run_update, run_serveFrame peer hframe]
    rfl
  | logged =>
    rw [run_transmit, ways, hw, h]
    dsimp only
    rw [callLogged, Activity.run_bind, Activity.run_update]
    rfl
  | direct =>
    rw [run_transmit, ways, hw, h]
    rfl

variable {peer} {P : Ending}

/-- A request that is sent comes to one of the ends that it can come to. -/
theorem sent_transmit
    (hpeer : ∀ j, c.reach? target = some j →
      ∃ reply c', (peer j (c.wiring.carry request)).run (c.noted target request) =
          (reply, c'.disengage j) ∧
        c'.outline = ((c.noted target request).engage j).outline ∧
        P ((c.noted target request).engage j) j (c.wiring.carry request) reply c') :
    Sent P c target request ((transmit (ways peer) target request).run c).1
      ((transmit (ways peer) target request).run c).2 := by
  have hends (hclear : c.Clear target request) : Sent P c target request
      ((transmit (ways peer) target request).run c).1
      ((transmit (ways peer) target request).run c).2 := by
    cases hj : c.reach? target with
    | none =>
      rw [run_transmit_unreachable peer hclear hj]
      exact .unreachable hclear hj
    | some j =>
      obtain ⟨reply, c', hrun, hkeep, hend⟩ := hpeer j hj
      rw [run_transmit_reached peer hclear hj, hrun]
      exact .reached hclear hj hkeep hend
  by_cases hw : c.wiring = .framed
  · cases hframe : Frame.encode Format.request request with
    | error e =>
      rw [run_transmit_oversized peer hw hframe]
      exact .oversized hw hframe
    | ok frame =>
      cases hscript : c.scripts.find? target.id with
      | some script =>
        rw [run_transmit_scripted peer hw hframe hscript]
        exact .scripted hw hframe hscript
      | none => exact hends fun _ => ⟨⟨frame, hframe⟩, hscript⟩
  · exact hends fun h => absurd h hw

/-- What is said to become of a request becomes of it where `P` is true of its handling. -/
theorem Sent.run_transmit {reply : Reply} {c' : Cluster} (h : Sent P c target request reply c')
    (hpeer : ∀ j reply c', c.reach? target = some j →
      P ((c.noted target request).engage j) j (c.wiring.carry request) reply c' →
      (peer j (c.wiring.carry request)).run (c.noted target request) = (reply, c'.disengage j)) :
    (transmit (ways peer) target request).run c = (reply, c') := by
  cases h with
  | oversized hframed hframe => exact run_transmit_oversized peer hframed hframe
  | scripted hframed hframe hscript => exact run_transmit_scripted peer hframed hframe hscript
  | unreachable hclear hnone => exact run_transmit_unreachable peer hclear hnone
  | reached hclear hj _ hend => rw [run_transmit_reached peer hclear hj, hpeer _ _ _ hj hend]

end Transmission

/-! ## Induction over the calls of a call -/

/-- Whether `P` holds of every way to handle a request if it holds of the requests that are sent
on. -/
structure Attended (P : Ending) : Prop where
  refused : ∀ {c : Cluster} {i : ServiceId} {action : Action} {hop : UInt32} {e : Error}, c.Live i →
    (c.service i).verdict c.oracle action hop = .refuse e →
    P c i (.single action hop) (.error e) (c.accepted i action hop)
  served : ∀ {c : Cluster} {i : ServiceId} {action : Action} {hop : UInt32}, c.Live i →
    (c.service i).verdict c.oracle action hop = .serve →
    P c i (.single action hop)
      (.ok (((c.accepted i action hop).service i).serve c.moment action).1)
      ((c.accepted i action hop).served i action)
  forwarded : ∀ {c : Cluster} {i : ServiceId} {action : Action} {hop : UInt32} {owner : Silo}
    {reply : Reply} {c' : Cluster}, c.Live i →
    (c.service i).verdict c.oracle action hop = .forward owner → c'.outline = c.outline →
    Sent P ((c.accepted i action hop).dispatched i action) owner (.single action (hop + 1)) reply
      c' →
    P c i (.single action hop) reply (c'.learned i action reply)
  batchRefused : ∀ {c : Cluster} {i : ServiceId} {addresses : List GrainAddress}
    {cause : RemovalCause} {hop : UInt32} {e : Error}, c.Live i →
    (c.service i).split hop addresses = .error e →
    P c i (.batch addresses cause hop) (.error e) (c.entered i hop)
  batchSplit : ∀ {c : Cluster} {i : ServiceId} {addresses : List GrainAddress}
    {cause : RemovalCause} {hop : UInt32} {split : Service.Split} {replies : List Reply}
    {c' : Cluster}, c.Live i → (c.service i).split hop addresses = .ok split →
    SentAll P cause hop ((c.entered i hop).apportioned i cause split) split.away replies c' →
    P c i (.batch addresses cause hop) (joinReplies replies) c'

/-- Whether so many forwards are enough for a request that has been forwarded `hop` times. -/
def Suffices (c : Cluster) (forwards : Nat) (hop : UInt32) : Prop :=
  ∀ j < c.services.length, (c.service j).config.hopLimit.toNat ≤ forwards + hop.toNat

theorem suffices_of_outline {c c' : Cluster} (h : c'.outline = c.outline) {forwards : Nat}
    {hop : UInt32} (hs : c.Suffices forwards hop) : c'.Suffices forwards hop := by
  intro j hj
  rw [length_eq_of_outline h] at hj
  have hlimit : (c'.service j).config.hopLimit = (c.service j).config.hopLimit :=
    congrArg Resolver.hopLimit (resolver_eq_of_outline h j)
  rw [hlimit]
  exact hs j hj

theorem suffices_maxForwards (c : Cluster) (hop : UInt32) : c.Suffices maxForwards hop := by
  intro j _
  have hlt := (c.service j).config.hopLimit.toNat_lt
  have hsize : maxForwards = 2 ^ 32 := rfl
  omega

/-- The ways of a call that may be forwarded so many times. -/
def waysOf : (forwards : Nat) → Ways
  | 0 => noWays
  | forwards + 1 => ways (perform forwards)

theorem perform_eq (forwards : Nat) (i : ServiceId) (request : Request) :
    perform forwards i request = attended i (handle (waysOf forwards) i request) := by
  cases forwards <;> rfl

theorem firm_waysOf (forwards : Nat) : Firm (waysOf forwards) := by
  cases forwards with
  | zero => exact firm_noWays
  | succ forwards => exact firm_ways forwards

theorem hop_lt_of_forward {s : Service} {o : Oracle} {action : Action} {hop : UInt32} {owner : Silo}
    (h : s.verdict o action hop = .forward owner) : hop < s.config.hopLimit :=
  Resolver.hop_lt_of_checkForward (Service.checkForward_of_forward h)

theorem hop_lt_of_mem_away {s : Service} {hop : UInt32} {addresses : List GrainAddress}
    {split : Service.Split} (h : s.split hop addresses = .ok split) {owner : Silo}
    {batch : List GrainAddress} (hb : (owner, batch) ∈ split.away) : hop < s.config.hopLimit := by
  obtain ⟨a, ha, howner⟩ := Service.exists_mem_of_mem_away h hb
  obtain ⟨hmem, -⟩ := Service.destination?_of_mem_away h hb ha
  have hresolves := Service.resolves_of_split h a hmem
  rw [Service.Resolves, howner] at hresolves
  exact Resolver.hop_lt_of_checkForward hresolves

namespace Attended

variable {P : Ending} (h : Attended P) {ways : Ways} (hways : Firm ways)

/-- What is left behind by requests that are sent on below the hop limit. -/
def SendsWell (P : Ending) (ways : Ways) (c : Cluster) (i : ServiceId) (hop : UInt32) : Prop :=
  hop < (c.service i).config.hopLimit →
    ∀ (c' : Cluster) (target : Silo) (request : Request), c'.outline = c.outline →
      request.hop = hop + 1 →
      Sent P c' target request ((transmit ways target request).run c').1
        ((transmit ways target request).run c').2

include hways in
theorem sentAll_transmitAll {c : Cluster} {i : ServiceId} {cause : RemovalCause} {hop : UInt32}
    (away : List (Silo × List GrainAddress)) (hlt : ∀ a ∈ away, hop < (c.service i).config.hopLimit)
    (hsent : SendsWell P ways c i hop) {c' : Cluster} (hkeep : c'.outline = c.outline) :
    SentAll P cause hop c' away ((transmitAll ways cause hop away).run c').1
      ((transmitAll ways cause hop away).run c').2 := by
  induction away generalizing c' with
  | nil => exact .nil c'
  | cons a rest ih =>
    have hfirst := hsent (hlt a List.mem_cons_self) c' a.1 (.batch a.2 cause (hop + 1)) hkeep rfl
    have hstep := keeps_transmit hways a.1 (.batch a.2 cause (hop + 1)) c'
    rw [run_transmitAll_cons]
    exact .cons hstep hfirst
      (ih (fun b hb => hlt b (List.mem_cons_of_mem a hb)) (hstep.trans hkeep))

include h hways in
/-- One service. -/
theorem handle {c : Cluster} {i : ServiceId} (hi : c.Live i) (request : Request)
    (hsent : SendsWell P ways c i request.hop) :
    P c i request ((Cluster.handle ways i request).run c).1
      ((Cluster.handle ways i request).run c).2 := by
  cases request with
  | single action hop =>
    show P c i _ ((handleAction ways i action hop).run c).1 ((handleAction ways i action hop).run c).2
    rw [run_handleAction]
    cases hverdict : (c.service i).verdict c.oracle action hop with
    | refuse e => exact h.refused hi hverdict
    | serve => exact h.served hi hverdict
    | forward owner =>
      have hkeep : ((c.accepted i action hop).dispatched i action).outline = c.outline :=
        (outline_dispatched action).trans (outline_accepted action hop)
      have hend := keeps_transmit hways owner (.single action (hop + 1))
        ((c.accepted i action hop).dispatched i action)
      exact h.forwarded hi hverdict (hend.trans hkeep)
        (hsent (hop_lt_of_forward hverdict) _ owner _ hkeep rfl)
  | batch addresses cause hop =>
    show P c i _ ((handleBatch ways i addresses cause hop).run c).1
      ((handleBatch ways i addresses cause hop).run c).2
    rw [run_handleBatch hways]
    cases hsplit : (c.service i).split hop addresses with
    | error e => exact h.batchRefused hi hsplit
    | ok split =>
      have hkeep : ((c.entered i hop).apportioned i cause split).outline = c.outline :=
        (outline_apportioned cause split).trans (outline_entered hop)
      exact h.batchSplit hi hsplit (sentAll_transmitAll hways split.away
        (fun a ha => hop_lt_of_mem_away hsplit ha) hsent hkeep)

include h in
/-- What holds of every way to handle a request holds of every run with forwards enough. -/
theorem run (forwards : Nat) {c : Cluster} {i : ServiceId} (hi : c.Live i) (request : Request)
    (hs : c.Suffices forwards request.hop) :
    P c i request ((Cluster.handle (waysOf forwards) i request).run c).1
      ((Cluster.handle (waysOf forwards) i request).run c).2 := by
  induction forwards generalizing c i request with
  | zero =>
    refine h.handle (firm_waysOf 0) hi request fun hlt => ?_
    have hle := hs i hi.1
    have hlt' : request.hop.toNat < (c.service i).config.hopLimit.toNat := hlt
    omega
  | succ forwards ih =>
    refine h.handle (firm_waysOf (forwards + 1)) hi request fun hlt c' target next hkeep hhop => ?_
    have hstep : next.hop.toNat = request.hop.toNat + 1 := by
      rw [hhop, toNat_hop_add_one hlt]
    refine sent_transmit fun j hj => ?_
    -- The service that is reached is held while the call is under way at it.
    have hnoted : (c'.noted target next).outline = c.outline :=
      (outline_noted target next).trans hkeep
    have hlive : ((c'.noted target next).engage j).Live j := by
      refine live_engage_iff.mpr (.inl ?_)
      rw [live_iff_of_outline (outline_noted target next)]
      exact live_of_reach? hj
    have hsuffices : ((c'.noted target next).engage j).Suffices forwards
        (c'.wiring.carry next).hop := by
      intro k hk
      have hle := suffices_of_outline hnoted hs k hk
      rw [Wiring.hop_carry, hstep]
      show ((c'.noted target next).service k).config.hopLimit.toNat ≤ _
      omega
    refine ⟨_, _, ?_, ?_, ih hlive (c'.wiring.carry next) hsuffices⟩
    · rw [perform_eq, run_attended]
    · exact keeps_handle (firm_waysOf forwards).keep j _ _

include h in
/-- What holds of every way to handle a request holds of every call. -/
theorem call {c : Cluster} {i : ServiceId} (hi : i < c.services.length) (request : Request) :
    ∃ reply c', (Cluster.call i request).run c = (reply, c'.disengage i) ∧
      c'.outline = (c.engage i).outline ∧ P (c.engage i) i request reply c' := by
  have hlive : (c.engage i).Live i := live_engage_iff.mpr (.inr ⟨hi, rfl⟩)
  refine ⟨_, _, ?_, ?_, h.run maxForwards hlive request (suffices_maxForwards _ _)⟩
  · rw [Cluster.call, perform_eq, run_attended]
  · exact keeps_handle (firm_waysOf maxForwards).keep i _ _

end Attended

end Cluster

end GrainDirectory

import GrainDirectory.Proofs.Forwarding
import GrainDirectory.Proofs.Wire.Faithful
set_option autoImplicit false

/-!
# Calls over frames are calls

Services that are connected by frames do what the same services do within one process, as long as
frames can carry what they tell each other: every message fits into a frame and names no endpoint with
a flow or a scope.  The traffic of a call lists these messages.

The proof compares the two runs of one activity: `Alike` says that they end with the same reply and in
clusters that differ only in how their services are connected.  The main statement is
`frames_transparent`.
-/

namespace GrainDirectory

/-! ## Messages -/

/-- What one service tells another. -/
inductive Message where
  | request (request : Request)
  | reply (reply : Reply)

namespace Message

/-- The endpoints that a message names. -/
def endpoints : Message → List Endpoint
  | .request r => r.endpoints
  | .reply r => Reply.endpoints r

/-- The body of the frame of a message. -/
def body : Message → Bytes
  | .request r => Format.request.write r
  | .reply r => Format.reply.write r

/-- Whether a frame carries a message as it is. -/
def Conveyable (m : Message) : Prop :=
  (∀ e ∈ m.endpoints, e.Unqualified) ∧ m.body.length < UInt32.size

instance (m : Message) : Decidable m.Conveyable := inferInstanceAs (Decidable (_ ∧ _))

end Message

namespace Wiring

variable {w : Wiring}

theorem carry_eq_self {request : Request}
    (h : w = .framed → (Message.request request).Conveyable) : w.carry request = request := by
  by_cases hw : w = .framed
  · rw [hw]
    exact Request.unscoped_eq_self_iff.mpr (h hw).1
  · exact carry_of_ne_framed hw request

/-- Whether a reply, if it is none of an error, is of the kind that answers an operation. -/
def Suits (op : Operation) (reply : Reply) : Prop := ∀ o, reply = .ok o → o.Fits op

theorem bring_eq_self {op : Operation} {reply : Reply}
    (h : w = .framed → (Message.reply reply).Conveyable) (hsuits : Suits op reply) :
    w.bring op reply = reply := by
  by_cases hw : w = .framed
  · obtain ⟨hendpoints, hbody⟩ := h hw
    have hframe := Frame.encode_of_lt hbody
    have hdecode := faithful_reply.exact reply _ hendpoints hframe
    have hchecked : reply.checked op = reply := by
      cases reply with
      | error e => rfl
      | ok o => exact if_pos (hsuits o rfl)
    rw [hw, bring, hframe, Frame.interpret, hdecode]
    exact hchecked
  · exact bring_of_ne_framed hw op reply

end Wiring

namespace Cluster

/-! ## Traffic -/

/-- The messages that travel when a request is sent to a silo, where `peer` are the services and
`inner` says which messages travel while one of them handles a request. -/
def sentTraffic (peer : ServiceId → Peer) (inner : Cluster → ServiceId → Request → List Message)
    (c : Cluster) (target : Silo) (request : Request) : List Message :=
  .request request ::
    match c.reach? target with
    | none => []
    | some j =>
      inner (c.noted target request) j (c.wiring.carry request) ++
        [.reply ((peer j (c.wiring.carry request)).run (c.noted target request)).1]

section Sending

variable (ways : Ways) (sent : Cluster → Silo → Request → List Message)

/-- The messages that travel when each owner is sent its part of a batch, where `sent` says which do
for one request. -/
def sentAllTraffic (cause : RemovalCause) (hop : UInt32) :
    List (Silo × List GrainAddress) → Cluster → List Message
  | [], _ => []
  | a :: rest, c =>
    sent c a.1 (.batch a.2 cause (hop + 1)) ++
      sentAllTraffic cause hop rest ((transmit ways a.1 (.batch a.2 cause (hop + 1))).run c).2

/-- The messages that travel while a service handles a request. -/
def handledTraffic (c : Cluster) (i : ServiceId) : Request → List Message
  | .single action hop =>
    match (c.service i).verdict c.oracle action hop with
    | .forward owner =>
      sent ((c.accepted i action hop).dispatched i action) owner (.single action (hop + 1))
    | _ => []
  | .batch addresses cause hop =>
    match (c.service i).split hop addresses with
    | .error _ => []
    | .ok split =>
      sentAllTraffic ways sent cause hop split.away ((c.entered i hop).apportioned i cause split)

end Sending

/-- The messages that travel during a call that may be forwarded so many times. -/
def trafficWithin : (forwards : Nat) → Cluster → ServiceId → Request → List Message
  | 0, c, i, request => handledTraffic noWays (fun _ _ _ => []) (c.engage i) i request
  | forwards + 1, c, i, request =>
    handledTraffic (ways (perform forwards)) (sentTraffic (perform forwards) (trafficWithin forwards))
      (c.engage i) i request

/-- The messages that travel during a call. -/
def traffic (c : Cluster) (i : ServiceId) (request : Request) : List Message :=
  trafficWithin maxForwards c i request

/-- Whether messages can be carried as they are over the wiring of a cluster. -/
def Conveys (c : Cluster) (messages : List Message) : Prop :=
  c.wiring = .framed → ∀ m ∈ messages, m.Conveyable

theorem Conveys.left {c : Cluster} {messages messages' : List Message}
    (h : c.Conveys (messages ++ messages')) : c.Conveys messages :=
  fun hw m hm => h hw m (List.mem_append_left _ hm)

theorem Conveys.right {c : Cluster} {messages messages' : List Message}
    (h : c.Conveys (messages ++ messages')) : c.Conveys messages' :=
  fun hw m hm => h hw m (List.mem_append_right _ hm)

theorem Conveys.congr {c c' : Cluster} {messages : List Message} (h : c.Conveys messages)
    (hkeep : c'.wiring = c.wiring) : c'.Conveys messages :=
  fun hw => h (hkeep ▸ hw)

/-! ## Two runs of one activity -/

/-- The cluster with its services connected within one process. -/
def inProcess (c : Cluster) : Cluster :=
  { c with wiring := .direct, scripts := .empty, calls := [] }

/-- The cluster with its services connected by frames. -/
def overFrames (c : Cluster) : Cluster := { c with wiring := .framed, scripts := .empty }

/-- Whether an activity that answers an operation runs in a cluster as it does within one process. -/
structure Alike (p : Activity Cluster Reply) (op : Operation) (c : Cluster) : Prop where
  reply : (p.run c).1 = (p.run c.inProcess).1
  state : (p.run c).2.inProcess = (p.run c.inProcess).2
  suits : Wiring.Suits op (p.run c).1

theorem Unscripted.find?_eq_none {c : Cluster} (h : c.Unscripted) (hw : c.wiring = .framed)
    (target : Silo) : c.scripts.find? target.id = none := by
  rw [Table.find?, h hw]
  rfl

theorem Unscripted.of_outline {c c' : Cluster} (h : c.Unscripted) (hkeep : c'.outline = c.outline) :
    c'.Unscripted := by
  intro hw
  rw [scripts_eq_of_outline hkeep]
  exact h (wiring_eq_of_outline hkeep ▸ hw)

/-- An error is of every kind. -/
theorem suits_error (op : Operation) (e : Error) : Wiring.Suits op (.error e) :=
  fun _ h => nomatch h

theorem Alike.of_run {p : Activity Cluster Reply} {op : Operation} {c d : Cluster} {reply : Reply}
    (hrun : p.run c = (reply, d)) (hrun' : p.run c.inProcess = (reply, d.inProcess))
    (hsuits : Wiring.Suits op reply) : Alike p op c where
  reply := by rw [hrun, hrun']
  state := by rw [hrun, hrun']
  suits := by
    rw [hrun]
    exact hsuits

/-- A request is sent alike if every service handles it alike. -/
theorem alike_transmit {peer : ServiceId → Peer}
    {inner : Cluster → ServiceId → Request → List Message} {c : Cluster} (hscripts : c.Unscripted)
    {target : Silo} {request : Request} (hconveys : c.Conveys (sentTraffic peer inner c target request))
    (hpeer : ∀ (c' : Cluster) (j : ServiceId), c'.Unscripted → c'.Conveys (inner c' j request) →
      Alike (peer j request) request.operation c') :
    Alike (transmit (ways peer) target request) request.operation c := by
  have hcarry : c.wiring.carry request = request :=
    Wiring.carry_eq_self fun hw => hconveys hw _ List.mem_cons_self
  have hclear : c.Clear target request := fun hw =>
    ⟨⟨_, Frame.encode_of_lt (hconveys hw _ List.mem_cons_self).2⟩, hscripts.find?_eq_none hw target⟩
  have hclear' : c.inProcess.Clear target request := fun hw => nomatch hw
  cases hj : c.reach? target with
  | none =>
    exact .of_run (run_transmit_unreachable peer hclear hj)
      (run_transmit_unreachable peer hclear' (show c.inProcess.reach? target = none from hj))
      (suits_error _ _)
  | some j =>
    rw [sentTraffic, hj, hcarry] at hconveys
    have htail : c.Conveys (inner (c.noted target request) j request ++
        [.reply ((peer j request).run (c.noted target request)).1]) :=
      fun hw m hm => hconveys hw m (List.mem_cons_of_mem _ hm)
    have hnoted : (c.noted target request).inProcess = c.inProcess := by
      unfold noted
      split <;> rfl
    obtain ⟨hreply, hstate, hsuits⟩ := hpeer (c.noted target request) j
      (hscripts.of_outline (outline_noted target request))
      (htail.left.congr (wiring_noted target request))
    rw [hnoted] at hreply hstate
    have hrun := run_transmit_reached peer hclear hj
    have hrun' := run_transmit_reached peer hclear' (show c.inProcess.reach? target = some j from hj)
    dsimp only at hrun hrun'
    rw [hcarry, Wiring.bring_eq_self (fun hw => htail.right hw _ (List.mem_singleton_self _)) hsuits]
      at hrun
    have hplain : (transmit (ways peer) target request).run c.inProcess =
        (peer j request).run c.inProcess := hrun'
    exact .of_run hrun (hplain.trans (Prod.ext hreply.symm hstate.symm)) hsuits

section Handling

variable {ways : Ways} {sent : Cluster → Silo → Request → List Message}
  (hsent : ∀ (c : Cluster) (target : Silo) (request : Request), c.Unscripted →
    c.Conveys (sent c target request) → Alike (transmit ways target request) request.operation c)

theorem suits_serve (s : Service) (m : Moment) (action : Action) :
    Wiring.Suits action.operation (.ok (s.serve m action).1) := by
  rintro _ ⟨⟩
  cases action <;> trivial

include hsent

theorem alike_handleAction {c : Cluster} (hscripts : c.Unscripted) {i : ServiceId} {action : Action}
    {hop : UInt32} (hconveys : c.Conveys (handledTraffic ways sent c i (.single action hop))) :
    Alike (handleAction ways i action hop) action.operation c := by
  have hrun := run_handleAction ways i action hop c
  have hrun' := run_handleAction ways i action hop c.inProcess
  have hverdict : (c.inProcess.service i).verdict c.inProcess.oracle action hop =
      (c.service i).verdict c.oracle action hop := rfl
  rw [hverdict] at hrun'
  rw [handledTraffic] at hconveys
  cases hv : (c.service i).verdict c.oracle action hop with
  | refuse e =>
    rw [hv] at hrun hrun'
    exact .of_run hrun hrun' (suits_error _ e)
  | serve =>
    rw [hv] at hrun hrun'
    exact .of_run hrun hrun' (suits_serve _ _ action)
  | forward owner =>
    rw [hv] at hrun hrun' hconveys
    dsimp only at hrun hrun' hconveys
    have hkeep : ((c.accepted i action hop).dispatched i action).outline = c.outline :=
      (outline_dispatched action).trans (outline_accepted action hop)
    obtain ⟨hreply, hstate, hsuits⟩ :=
      hsent ((c.accepted i action hop).dispatched i action) owner (.single action (hop + 1))
        (hscripts.of_outline hkeep) (hconveys.congr (wiring_eq_of_outline hkeep))
    have hstart : (c.inProcess.accepted i action hop).dispatched i action =
        ((c.accepted i action hop).dispatched i action).inProcess := rfl
    rw [hstart, ← hstate, ← hreply] at hrun'
    exact .of_run hrun hrun' hsuits

/-- The parts of a batch are sent alike, one after the other. -/
theorem alike_transmitAll (hways : Firm ways) {cause : RemovalCause} {hop : UInt32}
    (away : List (Silo × List GrainAddress)) {c : Cluster} (hscripts : c.Unscripted)
    (hconveys : c.Conveys (sentAllTraffic ways sent cause hop away c)) :
    ((transmitAll ways cause hop away).run c).1 =
        ((transmitAll ways cause hop away).run c.inProcess).1 ∧
      ((transmitAll ways cause hop away).run c).2.inProcess =
        ((transmitAll ways cause hop away).run c.inProcess).2 := by
  induction away generalizing c with
  | nil => exact ⟨rfl, rfl⟩
  | cons a rest ih =>
    rw [sentAllTraffic] at hconveys
    have hkeep := keeps_transmit hways a.1 (.batch a.2 cause (hop + 1)) c
    obtain ⟨hreply, hstate, -⟩ := hsent c a.1 (.batch a.2 cause (hop + 1)) hscripts hconveys.left
    obtain ⟨hreplies, hend⟩ := ih (hscripts.of_outline hkeep)
      (hconveys.right.congr (wiring_eq_of_outline hkeep))
    rw [run_transmitAll_cons, run_transmitAll_cons]
    dsimp only
    rw [← hstate, ← hreply, hreplies, hend]
    exact ⟨rfl, rfl⟩

omit hsent in
/-- Several removals end together with an acknowledgement or an error. -/
theorem suits_joinReplies (replies : List Reply) :
    Wiring.Suits .unregisterMany (joinReplies replies) := by
  induction replies with
  | nil =>
    rintro _ ⟨⟩
    trivial
  | cons reply rest ih =>
    cases reply with
    | error e => exact suits_error _ e
    | ok o => exact ih

theorem alike_handleBatch (hways : Firm ways) {c : Cluster} (hscripts : c.Unscripted) {i : ServiceId}
    {addresses : List GrainAddress} {cause : RemovalCause} {hop : UInt32}
    (hconveys : c.Conveys (handledTraffic ways sent c i (.batch addresses cause hop))) :
    Alike (handleBatch ways i addresses cause hop) .unregisterMany c := by
  have hrun := run_handleBatch hways i addresses cause hop c
  have hrun' := run_handleBatch hways i addresses cause hop c.inProcess
  have hsplit : (c.inProcess.service i).split hop addresses = (c.service i).split hop addresses := rfl
  rw [hsplit] at hrun'
  rw [handledTraffic] at hconveys
  cases hs : (c.service i).split hop addresses with
  | error e =>
    rw [hs] at hrun hrun'
    exact .of_run hrun hrun' (suits_error _ e)
  | ok split =>
    rw [hs] at hrun hrun' hconveys
    dsimp only at hrun hrun' hconveys
    have hkeep : ((c.entered i hop).apportioned i cause split).outline = c.outline :=
      (outline_apportioned cause split).trans (outline_entered hop)
    obtain ⟨hreplies, hend⟩ := alike_transmitAll hsent hways split.away
      (hscripts.of_outline hkeep) (hconveys.congr (wiring_eq_of_outline hkeep))
    have hstart : (c.inProcess.entered i hop).apportioned i cause split =
        ((c.entered i hop).apportioned i cause split).inProcess := rfl
    rw [hstart, ← hreplies, ← hend] at hrun'
    exact .of_run hrun hrun' (suits_joinReplies _)

theorem alike_handle (hways : Firm ways) {c : Cluster} (hscripts : c.Unscripted) {i : ServiceId}
    {request : Request} (hconveys : c.Conveys (handledTraffic ways sent c i request)) :
    Alike (handle ways i request) request.operation c := by
  cases request with
  | single action hop => exact alike_handleAction hsent hscripts hconveys
  | batch addresses cause hop => exact alike_handleBatch hsent hways hscripts hconveys

end Handling

theorem Alike.attended {p : Activity Cluster Reply} {op : Operation} {c : Cluster} {i : ServiceId}
    (h : Alike p op (c.engage i)) : Alike (Cluster.attended i p) op c where
  reply := by
    rw [run_attended, run_attended]
    exact h.reply
  state := by
    rw [run_attended, run_attended]
    exact congrArg (disengage · i) h.state
  suits := by
    rw [run_attended]
    exact h.suits

/-- A call runs in a cluster as it does within one process, if its messages can be carried. -/
theorem alike_perform (forwards : Nat) {c : Cluster} (hscripts : c.Unscripted) {i : ServiceId}
    {request : Request} (hconveys : c.Conveys (trafficWithin forwards c i request)) :
    Alike (perform forwards i request) request.operation c := by
  induction forwards generalizing c i request with
  | zero =>
    refine Alike.attended (alike_handle (fun c target request _ _ => ?_) firm_noWays
      (c := c.engage i) hscripts hconveys)
    rw [transmit]
    exact ⟨rfl, rfl, suits_error _ _⟩
  | succ forwards ih =>
    refine Alike.attended (alike_handle (fun c target request hscripts hconveys => ?_)
      (firm_ways forwards) (c := c.engage i) hscripts hconveys)
    exact alike_transmit hscripts hconveys fun c' j hscripts' hconveys' => ih hscripts' hconveys'

/-- A call over frames ends with the reply of the call within one process, and leaves every service
as that call does, if frames can carry its messages. -/
theorem frames_transparent {c : Cluster} (hwiring : c.wiring ≠ .framed) (i : ServiceId)
    (request : Request) (hmessages : ∀ m ∈ c.overFrames.traffic i request, m.Conveyable) :
    ((call i request).run c.overFrames).1 = ((call i request).run c).1 ∧
      ((call i request).run c.overFrames).2.services = ((call i request).run c).2.services := by
  have hframed : Alike (call i request) request.operation c.overFrames :=
    alike_perform maxForwards (fun _ => rfl) fun _ => hmessages
  have hdirect : Alike (call i request) request.operation c :=
    alike_perform maxForwards (fun hw => absurd hw hwiring) fun hw => absurd hw hwiring
  have hsame : c.overFrames.inProcess = c.inProcess := rfl
  have hservices (d : Cluster) : d.services = d.inProcess.services := rfl
  refine ⟨?_, ?_⟩
  · rw [hframed.reply, hdirect.reply, hsame]
  · rw [hservices, hservices ((call i request).run c).2, hframed.state, hdirect.state, hsame]

/-- A batch that the two services send each other until its hops are used up. -/
def bouncedBatch : Request := .batch [⟨⟨⟨⟨"g"⟩, "k"⟩, 0⟩, ⟨1⟩, (mutualOwners.service 0).home⟩] .force 0

theorem frames_transparent_mutualOwners :
    mutualOwners.wiring ≠ .framed ∧ (mutualOwners.overFrames.traffic 0 bouncedBatch).length = 12 ∧
      (∀ m ∈ mutualOwners.overFrames.traffic 0 bouncedBatch, m.Conveyable) ∧
      ((call 0 bouncedBatch).run mutualOwners.overFrames).1 = ((call 0 bouncedBatch).run mutualOwners).1 ∧
      ((call 0 bouncedBatch).run mutualOwners.overFrames).2.services =
        ((call 0 bouncedBatch).run mutualOwners).2.services := by
  have hwiring : mutualOwners.wiring ≠ .framed := by decide
  have hmessages : ∀ m ∈ mutualOwners.overFrames.traffic 0 bouncedBatch, m.Conveyable := by decide +kernel
  exact ⟨hwiring, by decide +kernel, hmessages, frames_transparent hwiring 0 bouncedBatch hmessages⟩

end Cluster

end GrainDirectory

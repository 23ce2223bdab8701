import GrainDirectory.Proofs.Wire.RoundTrip
set_option autoImplicit false

/-!
# What frames tell apart

A frame brings back the message that it was written from, except that an IPv6 endpoint comes back
without flow and scope.  So the silos of scoped endpoints are the only ones that change their identity
on the way, and messages have the same frame exactly when they differ in flows and scopes alone.

The main statement is `frames_faithful`, for requests and for replies.
-/

namespace GrainDirectory

/-! ## Endpoints that a frame carries as they are -/

/-- Whether no flow and no scope qualify an endpoint. -/
def Endpoint.Unqualified : Endpoint → Prop
  | .v4 .. => True
  | .v6 _ _ flowInfo scopeId => flowInfo = 0 ∧ scopeId = 0

instance (e : Endpoint) : Decidable e.Unqualified :=
  match e with
  | .v4 .. => .isTrue trivial
  | .v6 .. => inferInstanceAs (Decidable (_ ∧ _))

theorem Endpoint.unscoped_eq_self_iff {e : Endpoint} : e.unscoped = e ↔ e.Unqualified := by
  cases e with
  | v4 address port => exact ⟨fun _ => trivial, fun _ => rfl⟩
  | v6 address port flowInfo scopeId =>
    simp only [unscoped, Unqualified, Endpoint.v6.injEq, true_and, eq_comm]

theorem Silo.unscoped_eq_self_iff {s : Silo} : s.unscoped = s ↔ s.endpoint.Unqualified := by
  obtain ⟨⟨e, generation⟩, hash⟩ := s
  simp only [unscoped, endpoint, Silo.mk.injEq, SiloId.mk.injEq, and_true,
    Endpoint.unscoped_eq_self_iff]

theorem GrainAddress.unscoped_eq_self_iff {a : GrainAddress} :
    a.unscoped = a ↔ a.silo.endpoint.Unqualified := by
  obtain ⟨grain, activation, silo⟩ := a
  simp only [unscoped, GrainAddress.mk.injEq, true_and, Silo.unscoped_eq_self_iff]

/-! ## The endpoints of a message -/

/-- The endpoints that an action names, in order. -/
def Action.endpoints : Action → List Endpoint
  | .register address previous =>
    address.silo.endpoint :: (previous.map fun a => a.silo.endpoint).toList
  | .unregister address _ => [address.silo.endpoint]
  | .lookup _ => []
  | .delete _ => []

/-- The endpoints that a request names, in order. -/
def Request.endpoints : Request → List Endpoint
  | .single action _ => action.endpoints
  | .batch addresses _ _ => addresses.map fun a => a.silo.endpoint

/-- The endpoints that an error names, in order. -/
def Error.endpoints : Error → List Endpoint
  | .hopLimitExceeded _ _ here owner _ => [here.endpoint, owner.endpoint]
  | .unstableTarget _ here owner => [here.endpoint, owner.endpoint]
  | .network (.unreachable silo) => [silo.endpoint]
  | _ => []

/-- The endpoints that an outcome names. -/
def Outcome.endpoints : Outcome → List Endpoint
  | .located answer => (answer.address.map fun a => a.silo.endpoint).toList
  | .done => []

/-- The endpoints that a reply names, in order. -/
def Reply.endpoints : Reply → List Endpoint
  | .error e => e.endpoints
  | .ok o => o.endpoints

/-! ### Messages without flows and scopes -/

theorem GrainAddress.optional_unscoped_eq_self_iff {a : Option GrainAddress} :
    a.map GrainAddress.unscoped = a ↔
      ∀ e ∈ (a.map fun a => a.silo.endpoint).toList, e.Unqualified := by
  cases a <;> simp [GrainAddress.unscoped_eq_self_iff]

theorem GrainAddress.list_unscoped_eq_self_iff {as : List GrainAddress} :
    as.map GrainAddress.unscoped = as ↔ ∀ e ∈ as.map fun a => a.silo.endpoint, e.Unqualified := by
  induction as with
  | nil => simp
  | cons a rest ih => simp only [List.map_cons, List.cons.injEq, List.forall_mem_cons, ih,
      GrainAddress.unscoped_eq_self_iff]

theorem Action.unscoped_eq_self_iff {action : Action} :
    action.unscoped = action ↔ ∀ e ∈ action.endpoints, e.Unqualified := by
  cases action with
  | register address previous =>
    simp only [unscoped, endpoints, Action.register.injEq, List.forall_mem_cons,
      GrainAddress.unscoped_eq_self_iff, GrainAddress.optional_unscoped_eq_self_iff]
  | unregister address cause =>
    simp [unscoped, endpoints, GrainAddress.unscoped_eq_self_iff]
  | lookup grain => simp [unscoped, endpoints]
  | delete grain => simp [unscoped, endpoints]

theorem Request.unscoped_eq_self_iff {request : Request} :
    request.unscoped = request ↔ ∀ e ∈ request.endpoints, e.Unqualified := by
  cases request with
  | single action hop =>
    simp only [unscoped, endpoints, Request.single.injEq, and_true, Action.unscoped_eq_self_iff]
  | batch addresses cause hop =>
    simp only [unscoped, endpoints, Request.batch.injEq, and_true,
      GrainAddress.list_unscoped_eq_self_iff]

theorem Error.unscoped_eq_self_iff {e : Error} :
    e.unscoped = e ↔ ∀ endpoint ∈ e.endpoints, endpoint.Unqualified := by
  cases e with
  | network cause => cases cause <;> simp [unscoped, endpoints, Silo.unscoped_eq_self_iff]
  | _ => simp [unscoped, endpoints, Silo.unscoped_eq_self_iff]

theorem Outcome.unscoped_eq_self_iff {o : Outcome} :
    o.unscoped = o ↔ ∀ e ∈ o.endpoints, e.Unqualified := by
  cases o with
  | located answer =>
    obtain ⟨address, tag⟩ := answer
    simp only [unscoped, endpoints, TaggedAddress.unscoped, Outcome.located.injEq,
      TaggedAddress.mk.injEq, and_true, GrainAddress.optional_unscoped_eq_self_iff]
  | done => simp [unscoped, endpoints]

theorem Reply.unscoped_eq_self_iff {reply : Reply} :
    Reply.unscoped reply = reply ↔ ∀ e ∈ Reply.endpoints reply, e.Unqualified := by
  cases reply with
  | error e => simp only [unscoped, endpoints, Except.error.injEq, Error.unscoped_eq_self_iff]
  | ok o => simp only [unscoped, endpoints, Except.ok.injEq, Outcome.unscoped_eq_self_iff]

/-! ### The endpoints of what comes back -/

theorem Request.endpoints_unscoped (request : Request) :
    request.unscoped.endpoints = request.endpoints.map Endpoint.unscoped := by
  cases request with
  | single action hop =>
    cases action with
    | register address previous => cases previous <;> rfl
    | unregister address cause => rfl
    | lookup grain => rfl
    | delete grain => rfl
  | batch addresses cause hop =>
    simp only [unscoped, endpoints, List.map_map]
    rfl

theorem Reply.endpoints_unscoped (reply : Reply) :
    Reply.endpoints (Reply.unscoped reply) = (Reply.endpoints reply).map Endpoint.unscoped := by
  cases reply with
  | error e =>
    cases e with
    | network cause => cases cause <;> rfl
    | _ => rfl
  | ok o =>
    cases o with
    | located answer =>
      obtain ⟨address, tag⟩ := answer
      cases address <;> rfl
    | done => rfl

/-! ## What is not written -/

namespace Format

theorem write_silo_unscoped (s : Silo) : silo.write s.unscoped = silo.write s := by
  obtain ⟨⟨e, generation⟩, hash⟩ := s
  cases e <;> rfl

theorem write_address_unscoped (a : GrainAddress) : address.write a.unscoped = address.write a := by
  have hwrite (a : GrainAddress) : address.write a =
      grain.write a.grain ++ (activation.write a.activation ++ silo.write a.silo) := rfl
  rw [hwrite, hwrite]
  exact congrArg (fun bytes => _ ++ (_ ++ bytes)) (write_silo_unscoped a.silo)

theorem write_previous_unscoped (a : Option GrainAddress) :
    (optional address).write (a.map GrainAddress.unscoped) = (optional address).write a := by
  cases a with
  | none => rfl
  | some a => exact congrArg (1 :: ·) (write_address_unscoped a)

theorem write_addresses_unscoped (as : List GrainAddress) :
    (list address).write (as.map GrainAddress.unscoped) = (list address).write as := by
  have hwrite (as : List GrainAddress) :
      (list address).write as = (nat 8).write as.length ++ as.flatMap address.write := rfl
  rw [hwrite, hwrite, List.length_map, List.flatMap_map]
  simp only [write_address_unscoped]

theorem write_request_unscoped (m : Request) : request.write m.unscoped = request.write m := by
  cases m with
  | single action hop =>
    cases action with
    | register a previous =>
      have hwrite (a : GrainAddress) (previous : Option GrainAddress) :
          request.write (.single (.register a previous) hop) = (nat 4).write 0 ++
            (address.write a ++ ((optional address).write previous ++ u32.write hop)) := rfl
      rw [Request.unscoped, Action.unscoped, hwrite, hwrite, write_address_unscoped,
        write_previous_unscoped]
    | unregister a c =>
      have hwrite (a : GrainAddress) : request.write (.single (.unregister a c) hop) =
          (nat 4).write 1 ++ (address.write a ++ (cause.write c ++ u32.write hop)) := rfl
      rw [Request.unscoped, Action.unscoped, hwrite, hwrite, write_address_unscoped]
    | lookup g => rfl
    | delete g => rfl
  | batch as c hop =>
    have hwrite (as : List GrainAddress) : request.write (.batch as c hop) =
        (nat 4).write 2 ++ ((list address).write as ++ (cause.write c ++ u32.write hop)) := rfl
    rw [Request.unscoped, hwrite, hwrite, write_addresses_unscoped]

theorem write_error_unscoped (e : Error) : error.write e.unscoped = error.write e := by
  cases e with
  | hopLimitExceeded operation g here owner hop =>
    have hwrite (here owner : Silo) :
        error.write (.hopLimitExceeded operation g here owner hop) = (nat 4).write 1 ++
          (text.write operation ++ (grain.write g ++
            (silo.write here ++ (silo.write owner ++ u32.write hop)))) := rfl
    rw [Error.unscoped, hwrite, hwrite, write_silo_unscoped, write_silo_unscoped]
  | unstableTarget g here owner =>
    have hwrite (here owner : Silo) : error.write (.unstableTarget g here owner) =
        (nat 4).write 2 ++ (grain.write g ++ (silo.write here ++ silo.write owner)) := rfl
    rw [Error.unscoped, hwrite, hwrite, write_silo_unscoped, write_silo_unscoped]
  | network cause =>
    cases cause with
    | unreachable s =>
      have hwrite (s : Silo) : error.write (.network (.unreachable s)) =
          (nat 4).write 3 ++ ((nat 4).write 2 ++ silo.write s) := rfl
      rw [Error.unscoped, hwrite, hwrite, write_silo_unscoped]
    | serialization s => rfl
    | deserialization s => rfl
  | config s => rfl
  | remote s => rfl
  | internal s => rfl

theorem write_reply_unscoped (m : Reply) : reply.write (Reply.unscoped m) = reply.write m := by
  cases m with
  | error e =>
    have hwrite (e : Error) : reply.write (.error e) = (nat 4).write 2 ++ error.write e := rfl
    rw [Reply.unscoped, hwrite, hwrite, write_error_unscoped]
  | ok o =>
    cases o with
    | located t =>
      have hwrite (t : TaggedAddress) : reply.write (.ok (.located t)) =
          (nat 4).write 0 ++ ((optional address).write t.address ++ i32.write t.tag) := rfl
      rw [Reply.unscoped, Outcome.unscoped, hwrite, hwrite]
      exact congrArg (fun bytes => _ ++ (bytes ++ _)) (write_previous_unscoped t.address)
    | done => rfl

end Format

/-! ## Frames -/

/-- What frames do to the messages of a format, where `shown` says what is shown of a message and
`endpoints` which endpoints it names. -/
structure Faithful {α : Type} (f : Format α) (shown : α → α) (endpoints : α → List Endpoint) :
    Prop where
  /-- A frame is read as what is shown of the message that it was written from. -/
  back : ∀ m frame, Frame.encode f m = .ok frame → Frame.decode f frame = .ok (shown m)
  /-- What is shown of the endpoints is all but their flows and scopes. -/
  unscoped : ∀ m, endpoints (shown m) = (endpoints m).map Endpoint.unscoped
  /-- A message is shown as it is exactly if none of its endpoints has a flow or a scope. -/
  fixed : ∀ m, shown m = m ↔ ∀ e ∈ endpoints m, e.Unqualified
  /-- Messages have the same frame exactly if the same is shown of them. -/
  same : ∀ m frame, Frame.encode f m = .ok frame →
    ∀ m', Frame.encode f m' = .ok frame ↔ shown m' = shown m
  /-- A message without flows and scopes comes back as it was. -/
  exact : ∀ m frame, (∀ e ∈ endpoints m, e.Unqualified) → Frame.encode f m = .ok frame →
    Frame.decode f frame = .ok m
  /-- Different messages without flows and scopes have different frames. -/
  distinct : ∀ m m' frame, (∀ e ∈ endpoints m, e.Unqualified) →
    (∀ e ∈ endpoints m', e.Unqualified) → Frame.encode f m = .ok frame →
    Frame.encode f m' = .ok frame → m = m'

theorem Frame.encode_eq_of_write_eq {α : Type} {f : Format α} {a b : α}
    (h : f.write a = f.write b) : encode f a = encode f b := by
  rw [encode, encode, h]

/-- A format that carries its messages, and writes no more of them than it shows, is faithful. -/
theorem faithful_of_carries {α : Type} {f : Format α} {shown : α → α}
    {endpoints : α → List Endpoint} (hcarries : f.Carries shown)
    (hwrite : ∀ m, f.write (shown m) = f.write m)
    (hunscoped : ∀ m, endpoints (shown m) = (endpoints m).map Endpoint.unscoped)
    (hfixed : ∀ m, shown m = m ↔ ∀ e ∈ endpoints m, e.Unqualified) :
    Faithful f shown endpoints := by
  have hback (m : α) (frame : Bytes) (h : Frame.encode f m = .ok frame) :
      Frame.decode f frame = .ok (shown m) := Frame.decode_encode hcarries h
  have hsame (m : α) (frame : Bytes) (h : Frame.encode f m = .ok frame) (m' : α) :
      Frame.encode f m' = .ok frame ↔ shown m' = shown m := by
    constructor
    · intro h'
      exact Except.ok.inj ((hback m' frame h').symm.trans (hback m frame h))
    · intro hshown
      have hbytes : f.write m' = f.write m := by rw [← hwrite m', hshown, hwrite m]
      exact (Frame.encode_eq_of_write_eq hbytes).trans h
  refine ⟨hback, hunscoped, hfixed, hsame, fun m frame hm h => ?_, fun m m' frame hm hm' h h' => ?_⟩
  · rw [hback m frame h, (hfixed m).mpr hm]
  · rw [← (hfixed m).mpr hm, ← (hfixed m').mpr hm']
    exact (hsame m' frame h' m).mp h

theorem faithful_request : Faithful Format.request Request.unscoped Request.endpoints :=
  faithful_of_carries Format.carries_request Format.write_request_unscoped
    Request.endpoints_unscoped fun _ => Request.unscoped_eq_self_iff

theorem faithful_reply : Faithful Format.reply Reply.unscoped Reply.endpoints :=
  faithful_of_carries Format.carries_reply Format.write_reply_unscoped
    Reply.endpoints_unscoped fun _ => Reply.unscoped_eq_self_iff

/-- Requests and replies come back from their frames as they were, but for the flows and scopes of
endpoints. -/
theorem frames_faithful :
    Faithful Format.request Request.unscoped Request.endpoints ∧
      Faithful Format.reply Reply.unscoped Reply.endpoints := ⟨faithful_request, faithful_reply⟩

/-- A registration at a silo with a flow and a scope. -/
def scopedRequest : Request :=
  .single (.register ⟨⟨⟨⟨"g"⟩, "k"⟩, 5⟩, ⟨1⟩, ⟨⟨.v6 1 2 3 4, 1⟩, 9⟩⟩ none) 0

theorem frames_faithful_scoped :
    ∃ frame, Frame.encode Format.request scopedRequest = .ok frame ∧
      Frame.decode Format.request frame = .ok scopedRequest.unscoped ∧
      scopedRequest.unscoped ≠ scopedRequest :=
  ⟨_, rfl, frames_faithful.1.back scopedRequest _ rfl, by decide⟩

end GrainDirectory

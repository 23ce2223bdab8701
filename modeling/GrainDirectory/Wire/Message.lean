import GrainDirectory.Membership.Status
import GrainDirectory.Request
import GrainDirectory.Wire.Format
set_option autoImplicit false

/-!
# The format of messages

How each part of a request and of a reply is written.  An endpoint is written without the flow and
scope of an IPv6 address, so these come back as zero; everything else comes back as it was.
-/

namespace GrainDirectory.Format

variable {α : Type}

/-! ## Names -/

/-- The endpoint at an IPv4 address. -/
def endpointV4 : Format (BitVec 32 × UInt16) := (bits 4).pair u16

/-- The endpoint at an IPv6 address. -/
def endpointV6 : Format (BitVec 128 × UInt16) := (bits 16).pair u16

def endpoint : Format Endpoint :=
  choice .family 2
    (fun
      | .v4 .. => 0
      | .v6 .. => 1)
    (fun
      | .v4 address port => endpointV4.write (address, port)
      | .v6 address port _ _ => endpointV6.write (address, port))
    (fun i rest =>
      match i with
      | 0 => andThen (endpointV4.read rest) fun p rest => .ok (.v4 p.1 p.2, rest)
      | _ => andThen (endpointV6.read rest) fun p rest => .ok (.v6 p.1 p.2 0 0, rest))

def silo : Format Silo :=
  (endpoint.pair (i32.pair u32)).map (fun p => ⟨⟨p.1, p.2.1⟩, p.2.2⟩)
    (fun s => (s.id.endpoint, s.id.generation, s.hash))

def grainType : Format GrainType := text.map GrainType.mk GrainType.name

def grain : Format Grain :=
  (grainType.pair (text.pair u32)).map (fun p => ⟨⟨p.1, p.2.1⟩, p.2.2⟩)
    (fun g => (g.id.kind, g.id.key, g.hash))

/-- An activation is a block of sixteen bytes. -/
def activation : Format ActivationId where
  write a := writeBlock (Bytes.bigEndian 16 a.value.toNat)
  read bytes :=
    andThen (readBlock bytes) fun block rest =>
      if block.length = 16 then .ok (⟨BitVec.ofNat 128 (Bytes.ofBigEndian block)⟩, rest)
      else .error (.activation block.length)

def address : Format GrainAddress :=
  (grain.pair (activation.pair silo)).map (fun p => ⟨p.1, p.2.1, p.2.2⟩)
    (fun a => (a.grain, a.activation, a.silo))

def tagged : Format TaggedAddress :=
  ((optional address).pair i32).map (fun p => ⟨p.1, p.2⟩) (fun t => (t.address, t.tag))

def cause : Format RemovalCause := oneOf [.force, .nonexistentActivation]

def status : Format SiloStatus :=
  oneOf [.none, .created, .joining, .active, .shuttingDown, .stopping, .dead]

/-! ## Errors -/

/-- The parts of an exceeded hop limit. -/
def hopLimit : Format (String × Grain × Silo × Silo × UInt32) :=
  text.pair (grain.pair (silo.pair (silo.pair u32)))

/-- The parts of an unstable target. -/
def unstable : Format (Grain × Silo × Silo) := grain.pair (silo.pair silo)

def networkError : Format NetworkError :=
  alternatives 3
    (fun
      | .serialization _ => 0
      | .deserialization _ => 1
      | .unreachable _ => 2)
    (fun
      | .serialization s => text.write s
      | .deserialization s => text.write s
      | .unreachable s => silo.write s)
    (fun i rest =>
      match i with
      | 0 => andThen (text.read rest) fun s rest => .ok (.serialization s, rest)
      | 1 => andThen (text.read rest) fun s rest => .ok (.deserialization s, rest)
      | _ => andThen (silo.read rest) fun s rest => .ok (.unreachable s, rest))

def error : Format Error :=
  alternatives 6
    (fun
      | .config _ => 0
      | .hopLimitExceeded .. => 1
      | .unstableTarget .. => 2
      | .network _ => 3
      | .remote _ => 4
      | .internal _ => 5)
    (fun
      | .config s => text.write s
      | .hopLimitExceeded operation g here owner hop => hopLimit.write (operation, g, here, owner, hop)
      | .unstableTarget g here owner => unstable.write (g, here, owner)
      | .network e => networkError.write e
      | .remote s => text.write s
      | .internal s => text.write s)
    (fun i rest =>
      match i with
      | 0 => andThen (text.read rest) fun s rest => .ok (.config s, rest)
      | 1 =>
        andThen (hopLimit.read rest) fun p rest =>
          .ok (.hopLimitExceeded p.1 p.2.1 p.2.2.1 p.2.2.2.1 p.2.2.2.2, rest)
      | 2 =>
        andThen (unstable.read rest) fun p rest => .ok (.unstableTarget p.1 p.2.1 p.2.2, rest)
      | 3 => andThen (networkError.read rest) fun e rest => .ok (.network e, rest)
      | 4 => andThen (text.read rest) fun s rest => .ok (.remote s, rest)
      | _ => andThen (text.read rest) fun s rest => .ok (.internal s, rest))

/-! ## Requests and replies -/

/-- The parts of a registration. -/
def registration : Format (GrainAddress × Option GrainAddress × UInt32) :=
  address.pair ((optional address).pair u32)

/-- The parts of a removal. -/
def removal : Format (GrainAddress × RemovalCause × UInt32) := address.pair (cause.pair u32)

/-- The parts of a batch of removals. -/
def removals : Format (List GrainAddress × RemovalCause × UInt32) :=
  (list address).pair (cause.pair u32)

/-- The parts of a question about a grain. -/
def question : Format (Grain × UInt32) := grain.pair u32

def request : Format Request :=
  alternatives 5
    (fun
      | .single (.register ..) _ => 0
      | .single (.unregister ..) _ => 1
      | .batch .. => 2
      | .single (.lookup _) _ => 3
      | .single (.delete _) _ => 4)
    (fun
      | .single (.register a previous) hop => registration.write (a, previous, hop)
      | .single (.unregister a c) hop => removal.write (a, c, hop)
      | .batch as c hop => removals.write (as, c, hop)
      | .single (.lookup g) hop => question.write (g, hop)
      | .single (.delete g) hop => question.write (g, hop))
    (fun i rest =>
      match i with
      | 0 =>
        andThen (registration.read rest) fun p rest =>
          .ok (.single (.register p.1 p.2.1) p.2.2, rest)
      | 1 =>
        andThen (removal.read rest) fun p rest => .ok (.single (.unregister p.1 p.2.1) p.2.2, rest)
      | 2 => andThen (removals.read rest) fun p rest => .ok (.batch p.1 p.2.1 p.2.2, rest)
      | 3 => andThen (question.read rest) fun p rest => .ok (.single (.lookup p.1) p.2, rest)
      | _ => andThen (question.read rest) fun p rest => .ok (.single (.delete p.1) p.2, rest))

def reply : Format Reply :=
  alternatives 3
    (fun
      | .ok (.located _) => 0
      | .ok .done => 1
      | .error _ => 2)
    (fun
      | .ok (.located t) => tagged.write t
      | .ok .done => []
      | .error e => error.write e)
    (fun i rest =>
      match i with
      | 0 => andThen (tagged.read rest) fun t rest => .ok (.ok (.located t), rest)
      | 1 => .ok (.ok .done, rest)
      | _ => andThen (error.read rest) fun e rest => .ok (.error e, rest))

end GrainDirectory.Format

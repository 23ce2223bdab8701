import GrainDirectory.Wire.Message
set_option autoImplicit false

/-!
# Frames

A frame is a body preceded by its length in four bytes, most significant first.  The length must be
that of the body; what follows a value inside a body is ignored.  `ask` and `answer` are the two ends
of a call that goes over frames.
-/

namespace GrainDirectory.Frame

variable {α : Type}

/-- The frame around a body. -/
def wrap (body : Bytes) : Bytes := Bytes.bigEndian 4 body.length ++ body

/-- Writes a value as a frame, unless it is too long for one. -/
def encode (f : Format α) (a : α) : Except Error Bytes :=
  let body := f.write a
  if body.length < UInt32.size then .ok (wrap body)
  else .error (.network (.serialization ("frame of " ++ toString body.length ++ " bytes")))

/-- The body of a frame. -/
def body? (frame : Bytes) : Except Malformed Bytes :=
  if frame.length < 4 then .error .head
  else
    let announced := Bytes.ofBigEndian (frame.take 4)
    let body := frame.drop 4
    if body.length = announced then .ok body else .error (.size announced body.length)

/-- Reads the value at the front of a frame's body. -/
def read (f : Format α) (frame : Bytes) : Except Malformed α :=
  match body? frame with
  | .error e => .error e
  | .ok body =>
    match f.read body with
    | .error e => .error e
    | .ok (a, _) => .ok a

/-- Reads a frame. -/
def decode (f : Format α) (frame : Bytes) : Except Error α :=
  match read f frame with
  | .error e => .error (.unreadable e.message)
  | .ok a => .ok a

/-! ## The caller's end -/

/-- What a caller makes of the frame that answers its request, or of the failure to get one. -/
def interpret (op : Operation) (answer : Except Error Bytes) : Reply :=
  match answer with
  | .error e => .error e
  | .ok frame =>
    match decode Format.reply frame with
    | .error e => .error e
    | .ok reply => reply.checked op

/-- A call over frames, where `exchange` carries the frame of the request and brings back the frame
that answers it. -/
def ask (exchange : Bytes → Except Error Bytes) (request : Request) : Reply :=
  match encode Format.request request with
  | .error e => .error e
  | .ok frame => interpret request.operation (exchange frame)

end GrainDirectory.Frame

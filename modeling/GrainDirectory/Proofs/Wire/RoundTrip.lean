import GrainDirectory.Text.Bytes.Lemmas
import GrainDirectory.Wire.Frame
set_option autoImplicit false

/-!
# Reading what was written

A format carries a value when reading what was written of it gives the value back and leaves alone
whatever follows.  Endpoints come back without scope and flow, so for a message it is the unscoped
message that comes back.  Each combinator carries what its parts carry; lengths are written in eight
bytes, which is why only what is shorter than that comes back.

The main statement is `Frame.decode_encode`: decoding the frame of a value gives what its format shows
of it.
-/

namespace GrainDirectory.Format

variable {α β : Type}

/-- What lengths can be written down. -/
def maxLength : Nat := 256 ^ 8

/-- Whether reading what was written, whatever follows it, gives what `shown` says of the value. -/
def Carries (f : Format α) (shown : α → α) : Prop :=
  ∀ a rest, (f.write a).length < maxLength → f.read (f.write a ++ rest) = .ok (shown a, rest)

/-! ## Numbers -/

theorem read_write_nat {width n : Nat} (h : n < 256 ^ width) (rest : Bytes) :
    (nat width).read ((nat width).write n ++ rest) = .ok (n, rest) := by
  have hlen : ¬ (Bytes.littleEndian width n ++ rest).length < width := by
    rw [List.length_append, Bytes.littleEndian_length]
    omega
  have htake : (Bytes.littleEndian width n ++ rest).take width = Bytes.littleEndian width n := by
    rw [List.take_left' (Bytes.littleEndian_length width n)]
  have hdrop : (Bytes.littleEndian width n ++ rest).drop width = rest := by
    rw [List.drop_left' (Bytes.littleEndian_length width n)]
  simp only [nat, if_neg hlen, htake, hdrop, Bytes.ofLittleEndian_littleEndian,
    Nat.mod_eq_of_lt h]

/-- A number of `width` bytes is carried as the values that stand for it one to one. -/
theorem carries_nat_map {width : Nat} {forth : Nat → β} {back : β → Nat}
    (hlt : ∀ b, back b < 256 ^ width) (hback : ∀ b, forth (back b) = b) :
    ((nat width).map forth back).Carries id := by
  intro b rest _
  show andThen ((nat width).read ((nat width).write (back b) ++ rest)) _ = _
  rw [read_write_nat (hlt b), andThen, hback]
  rfl

theorem Carries.map {f : Format α} {shown : α → α} {forth : α → β} {back : β → α}
    {shown' : β → β} (hf : f.Carries shown) (h : ∀ b, forth (shown (back b)) = shown' b) :
    (f.map forth back).Carries shown' := by
  intro b rest hlen
  show andThen (f.read (f.write (back b) ++ rest)) _ = _
  rw [hf (back b) rest hlen, andThen, h]

theorem carries_u16 : u16.Carries id :=
  carries_nat_map (fun b => b.toNat_lt) fun _ => UInt16.ofNat_toNat

theorem carries_u32 : u32.Carries id :=
  carries_nat_map (fun b => b.toNat_lt) fun _ => UInt32.ofNat_toNat

theorem carries_i32 : i32.Carries id :=
  carries_u32.map fun b => by simp

theorem carries_bits (width : Nat) : (bits width).Carries id := by
  intro v rest _
  have hlen : ¬ (Bytes.bigEndian width v.toNat ++ rest).length < width := by
    rw [List.length_append, Bytes.bigEndian_length]
    omega
  have htake : (Bytes.bigEndian width v.toNat ++ rest).take width =
      Bytes.bigEndian width v.toNat := by
    rw [List.take_left' (Bytes.bigEndian_length width _)]
  have hdrop : (Bytes.bigEndian width v.toNat ++ rest).drop width = rest := by
    rw [List.drop_left' (Bytes.bigEndian_length width _)]
  have hlt : v.toNat < 256 ^ width := by
    have := v.isLt
    rwa [Nat.pow_mul] at this
  simp only [bits, if_neg hlen, htake, hdrop, Bytes.ofBigEndian_bigEndian, Nat.mod_eq_of_lt hlt,
    BitVec.ofNat_toNat, BitVec.setWidth_eq, id]

/-! ## Compounds -/

theorem Carries.pair {f : Format α} {g : Format β} {shownA : α → α} {shownB : β → β}
    (hf : f.Carries shownA) (hg : g.Carries shownB) :
    (f.pair g).Carries (Prod.map shownA shownB) := by
  intro p rest hlen
  have hlen' : (f.write p.1).length + (g.write p.2).length < maxLength := by
    rwa [← List.length_append]
  show andThen (f.read ((f.write p.1 ++ g.write p.2) ++ rest)) _ = _
  rw [List.append_assoc, hf p.1 _ (by omega), andThen, hg p.2 _ (by omega), andThen]
  rfl

theorem Carries.optional {f : Format α} {shown : α → α} (hf : f.Carries shown) :
    (optional f).Carries (Option.map shown) := by
  intro a rest hlen
  cases a with
  | none => rfl
  | some a =>
    have hlen' : (f.write a).length < maxLength := by
      have : (1 :: f.write a).length < maxLength := hlen
      rw [List.length_cons] at this
      omega
    show andThen (f.read (f.write a ++ rest)) _ = _
    rw [hf a rest hlen', andThen]
    rfl

theorem readMany_flatMap {f : Format α} {shown : α → α} (hf : f.Carries shown) (as : List α)
    (rest : Bytes) (hlen : (as.flatMap f.write).length < maxLength) :
    readMany f as.length (as.flatMap f.write ++ rest) = .ok (as.map shown, rest) := by
  induction as with
  | nil => rfl
  | cons a as ih =>
    rw [List.flatMap_cons, List.length_append] at hlen
    rw [List.flatMap_cons, List.append_assoc, List.length_cons, readMany, hf a _ (by omega),
      andThen, ih (by omega), andThen]
    rfl

/-- A list has no more members than bytes when every member takes some. -/
theorem length_le_length_flatMap {f : Format α} (h : ∀ a, f.write a ≠ []) (as : List α) :
    as.length ≤ (as.flatMap f.write).length := by
  induction as with
  | nil => exact Nat.le_refl _
  | cons a as ih =>
    have := List.length_pos_of_ne_nil (h a)
    rw [List.flatMap_cons, List.length_append, List.length_cons]
    omega

theorem Carries.list {f : Format α} {shown : α → α} (hf : f.Carries shown)
    (h : ∀ a, f.write a ≠ []) : (list f).Carries (List.map shown) := by
  intro as rest hlen
  have hwrite : (Format.list f).write as = (nat 8).write as.length ++ as.flatMap f.write := rfl
  rw [hwrite, List.length_append] at hlen
  have hmembers : (as.flatMap f.write).length < maxLength :=
    Nat.lt_of_le_of_lt (Nat.le_add_left _ _) hlen
  have hcount : as.length < maxLength :=
    Nat.lt_of_le_of_lt (length_le_length_flatMap h as) hmembers
  have hread (bytes : Bytes) :
      (Format.list f).read bytes = andThen ((nat 8).read bytes) fun n rest => readMany f n rest := rfl
  rw [hread, hwrite, List.append_assoc, read_write_nat hcount, andThen,
    readMany_flatMap hf as rest hmembers]

theorem readBlock_writeBlock {block : Bytes} (h : block.length < maxLength) (rest : Bytes) :
    readBlock (writeBlock block ++ rest) = .ok (block, rest) := by
  have hlen : ¬ (block ++ rest).length < block.length := by
    rw [List.length_append]
    omega
  rw [readBlock, writeBlock, List.append_assoc, read_write_nat h, andThen, if_neg hlen,
    List.take_left, List.drop_left]

theorem decode_ofString (s : String) : Utf8.decode (Bytes.ofString s) = .ok s := by
  have h : String.fromUTF8? ⟨(Bytes.ofString s).toArray⟩ = some s := by
    have hbytes : (⟨(Bytes.ofString s).toArray⟩ : ByteArray) = s.toByteArray := by
      simp [Bytes.ofString]
    rw [hbytes, String.fromUTF8?, dif_pos s.isValidUTF8]
    simp [String.fromUTF8]
  rw [Utf8.decode, h]

theorem carries_text : text.Carries id := by
  intro s rest hlen
  have hwrite : text.write s = writeBlock (Bytes.ofString s) := rfl
  rw [hwrite, writeBlock, List.length_append] at hlen
  have hblock : (Bytes.ofString s).length < maxLength :=
    Nat.lt_of_le_of_lt (Nat.le_add_left _ _) hlen
  unfold text
  dsimp only
  rw [readBlock_writeBlock hblock, andThen]
  simp only [decode_ofString, id]

/-! ## Alternatives -/

/-- Alternatives are carried when their indices can be told apart and every body is carried. -/
theorem carries_choice {refuse : Nat → Malformed} {count : Nat} {index : α → Nat}
    {body : α → Bytes} {readBody : Nat → Bytes → Reading α} {shown : α → α}
    (hcount : count ≤ 256 ^ 4) (hindex : ∀ a, index a < count)
    (hbody : ∀ a rest, (body a).length < maxLength →
      readBody (index a) (body a ++ rest) = .ok (shown a, rest)) :
    (choice refuse count index body readBody).Carries shown := by
  intro a rest hlen
  simp only [choice, List.length_append] at hlen
  simp only [choice]
  rw [List.append_assoc, read_write_nat (Nat.lt_of_lt_of_le (hindex a) hcount), andThen,
    if_pos (hindex a), hbody a rest (Nat.lt_of_le_of_lt (Nat.le_add_left _ _) hlen)]

theorem carries_oneOf [BEq α] [LawfulBEq α] [Inhabited α] {values : List α}
    (hcount : values.length ≤ 256 ^ 4) (hall : ∀ a, a ∈ values) : (oneOf values).Carries id := by
  refine carries_choice hcount (fun a => List.idxOf_lt_length_iff.mpr (hall a)) ?_
  intro a rest _
  have hget : values.getD (values.idxOf a) default = a := by
    rw [List.getD_eq_getElem _ _ (List.idxOf_lt_length_iff.mpr (hall a))]
    exact List.getElem_idxOf _
  rw [hget]
  rfl

/-! ## Names -/

theorem carries_endpoint : endpoint.Carries Endpoint.unscoped := by
  refine carries_choice (by decide) ?_ ?_
  · intro e
    cases e with
    | v4 => exact Nat.zero_lt_two
    | v6 => exact Nat.one_lt_two
  · intro e rest hlen
    cases e with
    | v4 address port =>
      have h := ((carries_bits 4).pair carries_u16) (address, port) rest hlen
      dsimp only
      rw [endpointV4, h, andThen]
      rfl
    | v6 address port flowInfo scopeId =>
      have h := ((carries_bits 16).pair carries_u16) (address, port) rest hlen
      dsimp only
      rw [endpointV6, h, andThen]
      rfl

theorem carries_silo : silo.Carries Silo.unscoped :=
  (carries_endpoint.pair (carries_i32.pair carries_u32)).map fun _ => rfl

theorem carries_grainType : grainType.Carries id := carries_text.map fun _ => rfl

theorem carries_grain : grain.Carries id :=
  (carries_grainType.pair (carries_text.pair carries_u32)).map fun _ => rfl

theorem carries_activation : activation.Carries id := by
  intro a rest _
  have hwrite : activation.write a = writeBlock (Bytes.bigEndian 16 a.value.toNat) := rfl
  have hread (bytes : Bytes) : activation.read bytes = andThen (readBlock bytes) fun block rest =>
      if block.length = 16 then .ok (⟨BitVec.ofNat 128 (Bytes.ofBigEndian block)⟩, rest)
      else .error (.activation block.length) := rfl
  have hlen : (Bytes.bigEndian 16 a.value.toNat).length = 16 := Bytes.bigEndian_length 16 _
  have hlt : a.value.toNat < 256 ^ 16 := a.value.isLt
  have hblock : (Bytes.bigEndian 16 a.value.toNat).length < maxLength := by
    rw [hlen]
    decide
  rw [hread, hwrite, readBlock_writeBlock hblock, andThen, if_pos hlen,
    Bytes.ofBigEndian_bigEndian, Nat.mod_eq_of_lt hlt, BitVec.ofNat_toNat, BitVec.setWidth_eq]
  rfl

theorem carries_address : address.Carries GrainAddress.unscoped :=
  (carries_grain.pair (carries_activation.pair carries_silo)).map fun _ => rfl

theorem carries_tagged : tagged.Carries TaggedAddress.unscoped :=
  (carries_address.optional.pair carries_i32).map fun _ => rfl

theorem carries_cause : cause.Carries id :=
  carries_oneOf (by decide) fun c => by cases c <;> decide

/-! ## Errors -/

theorem carries_hopLimit :
    hopLimit.Carries (Prod.map id (Prod.map id (Prod.map Silo.unscoped
      (Prod.map Silo.unscoped id)))) :=
  carries_text.pair (carries_grain.pair (carries_silo.pair (carries_silo.pair carries_u32)))

theorem carries_unstable :
    unstable.Carries (Prod.map id (Prod.map Silo.unscoped Silo.unscoped)) :=
  carries_grain.pair (carries_silo.pair carries_silo)

/-- The network failure that a network failure is in a frame. -/
def shownCause : NetworkError → NetworkError
  | .unreachable silo => .unreachable silo.unscoped
  | e => e

theorem carries_networkError : networkError.Carries shownCause := by
  refine carries_choice (by decide) ?_ ?_
  · intro e
    cases e <;> simp
  · intro e rest hlen
    cases e with
    | serialization s => simp only [carries_text s rest hlen, andThen, shownCause, id]
    | deserialization s => simp only [carries_text s rest hlen, andThen, shownCause, id]
    | unreachable s => simp only [carries_silo s rest hlen, andThen, shownCause]

theorem carries_error : error.Carries Error.unscoped := by
  refine carries_choice (by decide) ?_ ?_
  · intro e
    cases e <;> simp
  · intro e rest hlen
    cases e with
    | config s => simp only [carries_text s rest hlen, andThen, Error.unscoped, id]
    | hopLimitExceeded operation g here owner hop =>
      simp only [carries_hopLimit _ rest hlen, andThen, Error.unscoped, Prod.map, id]
    | unstableTarget g here owner =>
      simp only [carries_unstable _ rest hlen, andThen, Error.unscoped, Prod.map, id]
    | network e =>
      simp only [carries_networkError e rest hlen, andThen]
      cases e <;> rfl
    | remote s => simp only [carries_text s rest hlen, andThen, Error.unscoped, id]
    | internal s => simp only [carries_text s rest hlen, andThen, Error.unscoped, id]

/-! ## Requests and replies -/

theorem carries_question : question.Carries (Prod.map id id) := carries_grain.pair carries_u32

theorem carries_registration :
    registration.Carries (Prod.map GrainAddress.unscoped
      (Prod.map (Option.map GrainAddress.unscoped) id)) :=
  carries_address.pair (carries_address.optional.pair carries_u32)

theorem carries_removal : removal.Carries (Prod.map GrainAddress.unscoped (Prod.map id id)) :=
  carries_address.pair (carries_cause.pair carries_u32)

theorem address_write_ne_nil (a : GrainAddress) : address.write a ≠ [] := by
  intro h
  have hlen := congrArg List.length h
  have hwrite : address.write a =
      (writeBlock (Bytes.ofString a.grain.id.kind.name) ++ (text.write a.grain.id.key ++
        u32.write a.grain.hash)) ++ (activation.write a.activation ++ silo.write a.silo) := rfl
  have hblock (block : Bytes) : (writeBlock block).length = 8 + block.length := by
    have hnat : (nat 8).write block.length = Bytes.littleEndian 8 block.length := rfl
    rw [writeBlock, List.length_append, hnat, Bytes.littleEndian_length]
  rw [hwrite, List.length_append, List.length_append, hblock, List.length_nil] at hlen
  omega

theorem carries_removals :
    removals.Carries (Prod.map (List.map GrainAddress.unscoped) (Prod.map id id)) :=
  (carries_address.list address_write_ne_nil).pair (carries_cause.pair carries_u32)

theorem carries_request : request.Carries Request.unscoped := by
  refine carries_choice (by decide) ?_ ?_
  · intro r
    rcases r with ⟨action, hop⟩ | ⟨addresses, cause, hop⟩
    · cases action <;> simp
    · simp
  · intro r rest hlen
    rcases r with ⟨action, hop⟩ | ⟨addresses, cause, hop⟩
    · cases action with
      | register address previous =>
        simp only [carries_registration _ rest hlen, andThen, Request.unscoped, Action.unscoped,
          Prod.map, id]
      | unregister address cause =>
        simp only [carries_removal _ rest hlen, andThen, Request.unscoped, Action.unscoped,
          Prod.map, id]
      | lookup grain =>
        simp only [carries_question _ rest hlen, andThen, Request.unscoped, Action.unscoped,
          Prod.map, id]
      | delete grain =>
        simp only [carries_question _ rest hlen, andThen, Request.unscoped, Action.unscoped,
          Prod.map, id]
    · simp only [carries_removals _ rest hlen, andThen, Request.unscoped, Prod.map, id]

theorem carries_reply : reply.Carries Reply.unscoped := by
  refine carries_choice (by decide) ?_ ?_
  · intro r
    rcases r with e | o
    · simp
    · cases o <;> simp
  · intro r rest hlen
    rcases r with e | o
    · simp only [carries_error e rest hlen, andThen, Reply.unscoped]
    · cases o with
      | located t => simp only [carries_tagged t rest hlen, andThen, Reply.unscoped, Outcome.unscoped]
      | done => rfl

end GrainDirectory.Format

/-! ## Frames -/

namespace GrainDirectory.Frame

variable {α : Type} {f : Format α} {shown : α → α}

theorem body?_wrap {body : Bytes} (h : body.length < UInt32.size) : body? (wrap body) = .ok body := by
  have hhead : ¬ (wrap body).length < 4 := by
    rw [wrap, List.length_append, Bytes.bigEndian_length]
    omega
  have htake : (wrap body).take 4 = Bytes.bigEndian 4 body.length := by
    rw [wrap, List.take_left' (Bytes.bigEndian_length 4 _)]
  have hdrop : (wrap body).drop 4 = body := by
    rw [wrap, List.drop_left' (Bytes.bigEndian_length 4 _)]
  have hannounced : Bytes.ofBigEndian (Bytes.bigEndian 4 body.length) = body.length := by
    rw [Bytes.ofBigEndian_bigEndian]
    exact Nat.mod_eq_of_lt h
  simp only [body?, if_neg hhead, htake, hdrop, hannounced, if_true]

/-- What fits into a frame has one. -/
theorem encode_of_lt {a : α} (h : (f.write a).length < UInt32.size) :
    encode f a = .ok (wrap (f.write a)) := if_pos h

/-- What is written as a frame is read back as its format shows it. -/
theorem decode_encode (hf : f.Carries shown) {a : α} {frame : Bytes}
    (h : encode f a = .ok frame) : decode f frame = .ok (shown a) := by
  unfold encode at h
  dsimp only at h
  split at h
  · rename_i hlen
    have hlong : (f.write a).length < Format.maxLength :=
      Nat.lt_trans hlen (by decide)
    have hread := hf a [] hlong
    rw [List.append_nil] at hread
    rw [← Except.ok.inj h, decode, read, body?_wrap hlen]
    dsimp only
    rw [hread]
  · cases h

end GrainDirectory.Frame

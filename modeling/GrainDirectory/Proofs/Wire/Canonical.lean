import GrainDirectory.Proofs.Wire.Faithful
set_option autoImplicit false

/-!
# Which frames are accepted

Reading accepts nothing but what writing produces.  A format is canonical when the bytes that it takes
for a value are those that it writes of this value, and the value is one that it shows as it is; this
is the converse of carrying what was written, and each combinator is canonical when its parts are.

So a byte string is read as a message exactly if it is a head of four bytes, which give a length, and a
body of this length that begins with what is written of the message.  A message that was cut off, and a
frame that became longer or shorter behind its head, are refused as malformed.

The main statement is `frames_exact`, for requests and for replies.
-/

namespace GrainDirectory.Format

variable {α β : Type}

/-! ## Canonical formats -/

theorem andThen_eq_ok_iff {r : Reading α} {k : α → Bytes → Reading β} {b : β} {rest : Bytes} :
    andThen r k = .ok (b, rest) ↔ ∃ a middle, r = .ok (a, middle) ∧ k a middle = .ok (b, rest) := by
  constructor
  · intro h
    cases r with
    | error e => cases h
    | ok p => exact ⟨p.1, p.2, rfl, h⟩
  · rintro ⟨a, middle, rfl, h⟩
    exact h

/-- Whether what is read as a value is what is written of it, and `shown` leaves the value as it is. -/
def Canonical (f : Format α) (shown : α → α) : Prop :=
  ∀ bytes a rest, f.read bytes = .ok (a, rest) → bytes = f.write a ++ rest ∧ shown a = a

/-- What is read of the only part of a value. -/
theorem Canonical.part {f : Format β} {shown : β → β} (hf : f.Canonical shown) {make : β → α}
    {bytes rest : Bytes} {a : α}
    (h : andThen (f.read bytes) (fun b rest => .ok (make b, rest)) = .ok (a, rest)) :
    ∃ b, a = make b ∧ bytes = f.write b ++ rest ∧ shown b = b := by
  obtain ⟨b, middle, hread, hmake⟩ := andThen_eq_ok_iff.mp h
  cases hmake
  exact ⟨b, rfl, hf bytes b rest hread⟩

/-! ## Numbers -/

theorem eq_of_read_nat {width n : Nat} {bytes rest : Bytes}
    (h : (nat width).read bytes = .ok (n, rest)) :
    bytes = (nat width).write n ++ rest ∧ n < 256 ^ width := by
  unfold nat at h ⊢
  dsimp only at h ⊢
  split at h
  · cases h
  · rename_i hlong
    have hlen : (bytes.take width).length = width := List.length_take_of_le (Nat.le_of_not_lt hlong)
    cases h
    constructor
    · have hback := Bytes.littleEndian_ofLittleEndian (bytes.take width)
      rw [hlen] at hback
      rw [hback, List.take_append_drop]
    · have hlt := Bytes.ofLittleEndian_lt (bytes.take width)
      rwa [hlen] at hlt

theorem canonical_nat_map {width : Nat} {forth : Nat → β} {back : β → Nat}
    (hback : ∀ n < 256 ^ width, back (forth n) = n) : ((nat width).map forth back).Canonical id := by
  intro bytes b rest h
  obtain ⟨n, middle, hread, hmake⟩ := andThen_eq_ok_iff.mp h
  cases hmake
  obtain ⟨hbytes, hlt⟩ := eq_of_read_nat hread
  refine ⟨?_, rfl⟩
  show bytes = (nat width).write (back (forth n)) ++ rest
  rw [hback n hlt]
  exact hbytes

theorem Canonical.map {f : Format α} {shown : α → α} {forth : α → β} {back : β → α}
    {shown' : β → β} (hf : f.Canonical shown) (hback : ∀ a, back (forth a) = a)
    (h : ∀ a, shown a = a → shown' (forth a) = forth a) : (f.map forth back).Canonical shown' := by
  intro bytes b rest hread
  obtain ⟨a, rfl, hbytes, hshown⟩ := hf.part hread
  refine ⟨?_, h a hshown⟩
  show bytes = f.write (back (forth a)) ++ rest
  rw [hback a]
  exact hbytes

theorem canonical_u16 : u16.Canonical id := canonical_nat_map fun _ hlt => UInt16.toNat_ofNat_of_lt' hlt

theorem canonical_u32 : u32.Canonical id := canonical_nat_map fun _ hlt => UInt32.toNat_ofNat_of_lt' hlt

theorem canonical_i32 : i32.Canonical id :=
  canonical_u32.map UInt32.toUInt32_toInt32 fun _ _ => rfl

theorem canonical_bits (width : Nat) : (bits width).Canonical id := by
  intro bytes v rest h
  unfold bits at h ⊢
  dsimp only at h ⊢
  split at h
  · cases h
  · rename_i hlong
    have hlen : (bytes.take width).length = width := List.length_take_of_le (Nat.le_of_not_lt hlong)
    cases h
    refine ⟨?_, rfl⟩
    have hlt : Bytes.ofBigEndian (bytes.take width) < 2 ^ (8 * width) := by
      have := Bytes.ofLittleEndian_lt (bytes.take width).reverse
      rwa [List.length_reverse, hlen, show (256 : Nat) = 2 ^ 8 from rfl, ← Nat.pow_mul] at this
    have hback := Bytes.bigEndian_ofBigEndian (bytes.take width)
    rw [hlen] at hback
    rw [BitVec.toNat_ofNat, Nat.mod_eq_of_lt hlt, hback, List.take_append_drop]

/-! ## Compounds -/

theorem Canonical.pair {f : Format α} {g : Format β} {shownA : α → α} {shownB : β → β}
    (hf : f.Canonical shownA) (hg : g.Canonical shownB) :
    (f.pair g).Canonical (Prod.map shownA shownB) := by
  intro bytes p rest h
  obtain ⟨a, middle, hfirst, hthen⟩ := andThen_eq_ok_iff.mp h
  obtain ⟨b, rfl, hmiddle, hb⟩ := hg.part hthen
  obtain ⟨hbytes, ha⟩ := hf bytes a middle hfirst
  refine ⟨?_, Prod.ext ha hb⟩
  show bytes = (f.write a ++ g.write b) ++ rest
  rw [hbytes, hmiddle, List.append_assoc]

theorem Canonical.optional {f : Format α} {shown : α → α} (hf : f.Canonical shown) :
    (optional f).Canonical (Option.map shown) := by
  intro bytes a rest h
  unfold Format.optional at h
  dsimp only at h
  split at h
  · cases h
  · rename_i mark middle
    split at h
    · rename_i hmark
      cases h
      exact ⟨congrArg (· :: rest) hmark, rfl⟩
    · split at h
      · rename_i hmark
        obtain ⟨b, rfl, hmiddle, hb⟩ := hf.part h
        refine ⟨?_, congrArg some hb⟩
        show mark :: middle = 1 :: (f.write b ++ rest)
        rw [hmark, hmiddle]
      · cases h

theorem eq_of_readMany {f : Format α} {shown : α → α} (hf : f.Canonical shown) {n : Nat}
    {bytes rest : Bytes} {as : List α} (h : readMany f n bytes = .ok (as, rest)) :
    as.length = n ∧ bytes = as.flatMap f.write ++ rest ∧ as.map shown = as := by
  induction n generalizing bytes as with
  | zero =>
    cases h
    exact ⟨rfl, rfl, rfl⟩
  | succ n ih =>
    obtain ⟨a, middle, hfirst, hthen⟩ := andThen_eq_ok_iff.mp h
    obtain ⟨others, middle', hothers, hmake⟩ := andThen_eq_ok_iff.mp hthen
    cases hmake
    obtain ⟨hbytes, ha⟩ := hf bytes a middle hfirst
    obtain ⟨hlen, hmiddle, hshown⟩ := ih hothers
    refine ⟨congrArg (· + 1) hlen, ?_, ?_⟩
    · rw [hbytes, hmiddle, List.flatMap_cons, List.append_assoc]
    · rw [List.map_cons, ha, hshown]

theorem Canonical.list {f : Format α} {shown : α → α} (hf : f.Canonical shown) :
    (list f).Canonical (List.map shown) := by
  intro bytes as rest h
  obtain ⟨n, middle, hcount, hmany⟩ := andThen_eq_ok_iff.mp h
  obtain ⟨hlen, hmiddle, hshown⟩ := eq_of_readMany hf hmany
  refine ⟨?_, hshown⟩
  show bytes = ((nat 8).write as.length ++ as.flatMap f.write) ++ rest
  rw [hlen, List.append_assoc, ← hmiddle]
  exact (eq_of_read_nat hcount).1

theorem eq_of_readBlock {bytes block rest : Bytes} (h : readBlock bytes = .ok (block, rest)) :
    bytes = writeBlock block ++ rest := by
  obtain ⟨n, middle, hcount, hthen⟩ := andThen_eq_ok_iff.mp h
  split at hthen
  · cases hthen
  · rename_i hlong
    have hlen : (middle.take n).length = n := List.length_take_of_le (Nat.le_of_not_lt hlong)
    cases hthen
    rw [writeBlock, hlen, List.append_assoc, List.take_append_drop]
    exact (eq_of_read_nat hcount).1

theorem eq_ofString_of_decode {block : Bytes} {s : String} (h : Utf8.decode block = .ok s) :
    block = Bytes.ofString s := by
  unfold Utf8.decode at h
  split at h
  · rename_i s' hs
    cases h
    unfold String.fromUTF8? at hs
    split at hs
    · cases hs
      rfl
    · cases hs
  · cases h

theorem canonical_text : text.Canonical id := by
  intro bytes s rest h
  obtain ⟨block, middle, hblock, hthen⟩ := andThen_eq_ok_iff.mp h
  split at hthen
  · cases hthen
  · rename_i hdecode
    cases hthen
    refine ⟨?_, rfl⟩
    show bytes = writeBlock (Bytes.ofString s) ++ rest
    rw [← eq_ofString_of_decode hdecode]
    exact eq_of_readBlock hblock

/-! ## Alternatives -/

/-- Alternatives are canonical when what is read behind an index is a value of this index. -/
theorem canonical_choice {refuse : Nat → Malformed} {count : Nat} {index : α → Nat}
    {body : α → Bytes} {readBody : Nat → Bytes → Reading α} {shown : α → α}
    (hbody : ∀ i bytes a rest, i < count → readBody i bytes = .ok (a, rest) →
      index a = i ∧ bytes = body a ++ rest ∧ shown a = a) :
    (choice refuse count index body readBody).Canonical shown := by
  intro bytes a rest h
  obtain ⟨i, middle, hindex, hthen⟩ := andThen_eq_ok_iff.mp h
  split at hthen
  · rename_i hi
    obtain ⟨hia, hmiddle, ha⟩ := hbody i middle a rest hi hthen
    refine ⟨?_, ha⟩
    show bytes = ((nat 4).write (index a) ++ body a) ++ rest
    rw [hia, List.append_assoc, ← hmiddle]
    exact (eq_of_read_nat hindex).1
  · cases hthen

theorem canonical_oneOf [BEq α] [LawfulBEq α] [Inhabited α] {values : List α}
    (hdistinct : values.Nodup) : (oneOf values).Canonical id := by
  refine canonical_choice fun i bytes a rest hi h => ?_
  cases h
  refine ⟨?_, rfl, rfl⟩
  rw [List.getD_eq_getElem _ _ hi]
  exact hdistinct.idxOf_getElem i hi

/-! ## Names -/

theorem canonical_endpoint : endpoint.Canonical Endpoint.unscoped := by
  refine canonical_choice fun i bytes e rest hi h => ?_
  match i, hi with
  | 0, _ =>
    obtain ⟨p, rfl, hbytes, -⟩ := ((canonical_bits 4).pair canonical_u16).part h
    exact ⟨rfl, hbytes, rfl⟩
  | 1, _ =>
    obtain ⟨p, rfl, hbytes, -⟩ := ((canonical_bits 16).pair canonical_u16).part h
    exact ⟨rfl, hbytes, rfl⟩

theorem canonical_silo : silo.Canonical Silo.unscoped :=
  (canonical_endpoint.pair (canonical_i32.pair canonical_u32)).map (fun _ => rfl) fun _ hp =>
    congrArg (fun p : Endpoint × Int32 × UInt32 => (⟨⟨p.1, p.2.1⟩, p.2.2⟩ : Silo)) hp

theorem canonical_grainType : grainType.Canonical id :=
  canonical_text.map (fun _ => rfl) fun _ _ => rfl

theorem canonical_grain : grain.Canonical id :=
  (canonical_grainType.pair (canonical_text.pair canonical_u32)).map (fun _ => rfl) fun _ _ => rfl

theorem canonical_activation : activation.Canonical id := by
  intro bytes a rest h
  obtain ⟨block, middle, hblock, hthen⟩ := andThen_eq_ok_iff.mp h
  split at hthen
  · rename_i hlen
    cases hthen
    refine ⟨?_, rfl⟩
    have hlt : Bytes.ofBigEndian block < 2 ^ 128 := by
      have := Bytes.ofLittleEndian_lt block.reverse
      rwa [List.length_reverse, hlen] at this
    have hback := Bytes.bigEndian_ofBigEndian block
    rw [hlen] at hback
    show bytes = writeBlock (Bytes.bigEndian 16 (BitVec.ofNat 128 (Bytes.ofBigEndian block)).toNat)
      ++ rest
    rw [BitVec.toNat_ofNat, Nat.mod_eq_of_lt hlt, hback]
    exact eq_of_readBlock hblock
  · cases hthen

theorem canonical_address : address.Canonical GrainAddress.unscoped :=
  (canonical_grain.pair (canonical_activation.pair canonical_silo)).map (fun _ => rfl) fun _ hp =>
    congrArg (fun p : Grain × ActivationId × Silo => (⟨p.1, p.2.1, p.2.2⟩ : GrainAddress)) hp

theorem canonical_tagged : tagged.Canonical TaggedAddress.unscoped :=
  (canonical_address.optional.pair canonical_i32).map (fun _ => rfl) fun _ hp =>
    congrArg (fun p : Option GrainAddress × Int32 => (⟨p.1, p.2⟩ : TaggedAddress)) hp

theorem canonical_cause : cause.Canonical id := canonical_oneOf (by decide)

/-! ## Errors -/

theorem canonical_hopLimit :
    hopLimit.Canonical (Prod.map id (Prod.map id (Prod.map Silo.unscoped
      (Prod.map Silo.unscoped id)))) :=
  canonical_text.pair (canonical_grain.pair (canonical_silo.pair (canonical_silo.pair canonical_u32)))

theorem canonical_unstable :
    unstable.Canonical (Prod.map id (Prod.map Silo.unscoped Silo.unscoped)) :=
  canonical_grain.pair (canonical_silo.pair canonical_silo)

theorem canonical_networkError : networkError.Canonical shownCause := by
  refine canonical_choice fun i bytes e rest hi h => ?_
  match i, hi with
  | 0, _ =>
    obtain ⟨s, rfl, hbytes, -⟩ := canonical_text.part h
    exact ⟨rfl, hbytes, rfl⟩
  | 1, _ =>
    obtain ⟨s, rfl, hbytes, -⟩ := canonical_text.part h
    exact ⟨rfl, hbytes, rfl⟩
  | 2, _ =>
    obtain ⟨s, rfl, hbytes, hs⟩ := canonical_silo.part h
    exact ⟨rfl, hbytes, congrArg NetworkError.unreachable hs⟩

theorem canonical_error : error.Canonical Error.unscoped := by
  refine canonical_choice fun i bytes e rest hi h => ?_
  match i, hi with
  | 0, _ =>
    obtain ⟨s, rfl, hbytes, -⟩ := canonical_text.part h
    exact ⟨rfl, hbytes, rfl⟩
  | 1, _ =>
    obtain ⟨p, rfl, hbytes, hp⟩ := canonical_hopLimit.part h
    exact ⟨rfl, hbytes, congrArg (fun p : String × Grain × Silo × Silo × UInt32 =>
      Error.hopLimitExceeded p.1 p.2.1 p.2.2.1 p.2.2.2.1 p.2.2.2.2) hp⟩
  | 2, _ =>
    obtain ⟨p, rfl, hbytes, hp⟩ := canonical_unstable.part h
    exact ⟨rfl, hbytes, congrArg (fun p : Grain × Silo × Silo =>
      Error.unstableTarget p.1 p.2.1 p.2.2) hp⟩
  | 3, _ =>
    obtain ⟨cause, rfl, hbytes, hcause⟩ := canonical_networkError.part h
    refine ⟨rfl, hbytes, ?_⟩
    cases cause with
    | unreachable s => exact congrArg Error.network hcause
    | serialization s => rfl
    | deserialization s => rfl
  | 4, _ =>
    obtain ⟨s, rfl, hbytes, -⟩ := canonical_text.part h
    exact ⟨rfl, hbytes, rfl⟩
  | 5, _ =>
    obtain ⟨s, rfl, hbytes, -⟩ := canonical_text.part h
    exact ⟨rfl, hbytes, rfl⟩

/-! ## Requests and replies -/

theorem canonical_question : question.Canonical (Prod.map id id) :=
  canonical_grain.pair canonical_u32

theorem canonical_registration :
    registration.Canonical (Prod.map GrainAddress.unscoped
      (Prod.map (Option.map GrainAddress.unscoped) id)) :=
  canonical_address.pair (canonical_address.optional.pair canonical_u32)

theorem canonical_removal : removal.Canonical (Prod.map GrainAddress.unscoped (Prod.map id id)) :=
  canonical_address.pair (canonical_cause.pair canonical_u32)

theorem canonical_removals :
    removals.Canonical (Prod.map (List.map GrainAddress.unscoped) (Prod.map id id)) :=
  canonical_address.list.pair (canonical_cause.pair canonical_u32)

theorem canonical_request : request.Canonical Request.unscoped := by
  refine canonical_choice fun i bytes m rest hi h => ?_
  match i, hi with
  | 0, _ =>
    obtain ⟨p, rfl, hbytes, hp⟩ := canonical_registration.part h
    exact ⟨rfl, hbytes, congrArg (fun p : GrainAddress × Option GrainAddress × UInt32 =>
      Request.single (.register p.1 p.2.1) p.2.2) hp⟩
  | 1, _ =>
    obtain ⟨p, rfl, hbytes, hp⟩ := canonical_removal.part h
    exact ⟨rfl, hbytes, congrArg (fun p : GrainAddress × RemovalCause × UInt32 =>
      Request.single (.unregister p.1 p.2.1) p.2.2) hp⟩
  | 2, _ =>
    obtain ⟨p, rfl, hbytes, hp⟩ := canonical_removals.part h
    exact ⟨rfl, hbytes, congrArg (fun p : List GrainAddress × RemovalCause × UInt32 =>
      Request.batch p.1 p.2.1 p.2.2) hp⟩
  | 3, _ =>
    obtain ⟨p, rfl, hbytes, -⟩ := canonical_question.part h
    exact ⟨rfl, hbytes, rfl⟩
  | 4, _ =>
    obtain ⟨p, rfl, hbytes, -⟩ := canonical_question.part h
    exact ⟨rfl, hbytes, rfl⟩

theorem canonical_reply : reply.Canonical Reply.unscoped := by
  refine canonical_choice fun i bytes m rest hi h => ?_
  match i, hi with
  | 0, _ =>
    obtain ⟨t, rfl, hbytes, ht⟩ := canonical_tagged.part h
    exact ⟨rfl, hbytes, congrArg (fun t => Except.ok (Outcome.located t)) ht⟩
  | 1, _ =>
    cases h
    exact ⟨rfl, rfl, rfl⟩
  | 2, _ =>
    obtain ⟨e, rfl, hbytes, he⟩ := canonical_error.part h
    exact ⟨rfl, hbytes, congrArg Except.error he⟩

end GrainDirectory.Format

/-! ## Frames -/

namespace GrainDirectory

namespace Frame

variable {α : Type}

/-- Whether a byte string is a head of four bytes, which give a length with the most significant byte
first, and a body of this length. -/
def Holds (frame body : Bytes) : Prop :=
  ∃ head : Bytes, head.length = 4 ∧ frame = head ++ body ∧ Bytes.ofBigEndian head = body.length

theorem body?_eq_ok_iff {frame body : Bytes} : body? frame = .ok body ↔ Holds frame body := by
  constructor
  · intro h
    unfold body? at h
    split at h
    · cases h
    · rename_i hlong
      dsimp only at h
      split at h
      · rename_i hlen
        cases h
        exact ⟨frame.take 4, List.length_take_of_le (Nat.le_of_not_lt hlong),
          (List.take_append_drop 4 frame).symm, hlen.symm⟩
      · cases h
  · rintro ⟨head, hhead, rfl, hlen⟩
    have hlong : ¬ (head ++ body).length < 4 := by
      rw [List.length_append]
      omega
    simp only [body?, if_neg hlong, List.take_left' hhead, List.drop_left' hhead, hlen, if_true]

/-- A frame's head is determined by its body, which is shorter than four bytes can say. -/
theorem holds_iff {frame body : Bytes} :
    Holds frame body ↔ frame = wrap body ∧ body.length < UInt32.size := by
  constructor
  · rintro ⟨head, hhead, rfl, hlen⟩
    have hback := Bytes.bigEndian_ofBigEndian head
    have hlt : Bytes.ofBigEndian head < 256 ^ head.length := by
      have := Bytes.ofLittleEndian_lt head.reverse
      rwa [List.length_reverse] at this
    rw [hhead, hlen] at hback hlt
    exact ⟨by rw [wrap, hback], hlt⟩
  · rintro ⟨rfl, hlt⟩
    exact body?_eq_ok_iff.mp (body?_wrap hlt)

theorem Holds.unique {frame body body' : Bytes} (h : Holds frame body) (h' : Holds frame body') :
    body = body' :=
  Except.ok.inj ((body?_eq_ok_iff.mpr h).symm.trans (body?_eq_ok_iff.mpr h'))

theorem decode_eq_ok_iff {f : Format α} {frame : Bytes} {a : α} :
    decode f frame = .ok a ↔ ∃ body rest, Holds frame body ∧ f.read body = .ok (a, rest) := by
  have hsteps : decode f frame = .ok a ↔
      ∃ body rest, body? frame = .ok body ∧ f.read body = .ok (a, rest) := by
    unfold decode read
    cases body? frame with
    | error e => simp
    | ok body =>
      dsimp only
      cases hread : f.read body with
      | error e => simp [hread]
      | ok p => simp [hread, Prod.ext_iff]
  simp only [hsteps, body?_eq_ok_iff]

/-- A frame that is not read is refused as malformed. -/
theorem decode_refused_iff {f : Format α} {frame : Bytes} :
    (∃ text, decode f frame = .error (.network (.deserialization text))) ↔
      ∀ a, decode f frame ≠ .ok a := by
  constructor
  · rintro ⟨text, h⟩ a ha
    rw [h] at ha
    cases ha
  · intro h
    cases hframe : decode f frame with
    | ok a => exact absurd hframe (h a)
    | error e =>
      unfold decode at hframe
      split at hframe
      · cases hframe
        exact ⟨_, rfl⟩
      · cases hframe

/-- A frame is not read any more when its body has become longer or shorter and its head has not
changed, or is not all there. -/
theorem decode_resized_ne_ok {f : Format α} {frame body changed : Bytes} (h : Holds frame body)
    (hhead : changed.take 4 <+: frame.take 4) (hlen : changed.length ≠ frame.length) (a : α) :
    decode f changed ≠ .ok a := by
  intro ha
  obtain ⟨body', -, ⟨head', hfour', rfl, hsize'⟩, -⟩ := decode_eq_ok_iff.mp ha
  obtain ⟨head, hfour, rfl, hsize⟩ := h
  rw [List.take_left' hfour, List.take_left' hfour'] at hhead
  have hsame : head' = head := hhead.eq_of_length (hfour'.trans hfour.symm)
  refine hlen ?_
  rw [List.length_append, List.length_append, ← hsize, ← hsize', hsame]

section

variable {f : Format α} {shown : α → α} (hcanonical : f.Canonical shown) (hcarries : f.Carries shown)

include hcanonical

theorem read_of_decode {frame : Bytes} {m : α} (h : decode f frame = .ok m) :
    shown m = m ∧ ∃ rest, Holds frame (f.write m ++ rest) ∧
      f.read (f.write m ++ rest) = .ok (m, rest) := by
  obtain ⟨body, rest, hbody, hread⟩ := decode_eq_ok_iff.mp h
  obtain ⟨rfl, hm⟩ := hcanonical body m rest hread
  exact ⟨hm, rest, hbody, hread⟩

include hcarries

/-- A message is read from what holds it, if it is shown as it is. -/
theorem decode_eq_ok_iff_holds {frame : Bytes} {m : α} :
    decode f frame = .ok m ↔ shown m = m ∧ ∃ rest, Holds frame (f.write m ++ rest) := by
  constructor
  · intro h
    obtain ⟨hm, rest, hbody, -⟩ := read_of_decode hcanonical h
    exact ⟨hm, rest, hbody⟩
  · rintro ⟨hm, rest, hbody⟩
    have hshort : (f.write m).length < Format.maxLength := by
      refine Nat.lt_of_le_of_lt ?_ (Nat.lt_trans (holds_iff.mp hbody).2 (by decide))
      exact List.length_append ▸ Nat.le_add_right _ _
    have hback := hcarries m rest hshort
    rw [hm] at hback
    exact decode_eq_ok_iff.mpr ⟨_, rest, hbody, hback⟩

/-- No message is read from the beginning of what was written of another. -/
theorem decode_truncated_ne_ok {m : α} {body : Bytes} (hlong : (f.write m).length < Format.maxLength)
    (hbegins : body <+: f.write m) (hne : body ≠ f.write m) (hlt : body.length < UInt32.size)
    (m' : α) : decode f (wrap body) ≠ .ok m' := by
  intro h
  obtain ⟨hm', rest, hbody, -⟩ := read_of_decode hcanonical h
  obtain rfl : body = f.write m' ++ rest := (holds_iff.mpr ⟨rfl, hlt⟩ : Holds _ body).unique hbody
  obtain ⟨lost, hlost⟩ := hbegins
  -- What was written of `m` begins with what is written of `m'`, so it is read as either of them.
  have hshort : (f.write m').length < Format.maxLength := by
    refine Nat.lt_of_le_of_lt ?_ hlong
    rw [← hlost, List.length_append, List.length_append]
    omega
  have hback : f.read (f.write m) = .ok (shown m, []) := by
    have := hcarries m [] hlong
    rwa [List.append_nil] at this
  have hback' : f.read (f.write m) = .ok (shown m', rest ++ lost) := by
    rw [← hlost, List.append_assoc]
    exact hcarries m' _ hshort
  have hnothing : [] = rest ++ lost :=
    congrArg Prod.snd (Except.ok.inj (hback.symm.trans hback'))
  refine hne ?_
  rw [← hlost, (List.append_eq_nil_iff.mp hnothing.symm).2, List.append_nil]

end

end Frame

/-- What byte strings a format accepts as the frames of messages, where `endpoints` says which endpoints
a message names. -/
structure Exact {α : Type} (f : Format α) (endpoints : α → List Endpoint) : Prop where
  /-- A byte string is read as a message exactly if it holds what is written of the message, perhaps
  with something behind it, and the message names no flow and no scope. -/
  accepted : ∀ frame m, Frame.decode f frame = .ok m ↔
    (∀ e ∈ endpoints m, e.Unqualified) ∧ ∃ rest, Frame.Holds frame (f.write m ++ rest)
  /-- What was read of an accepted frame is what is written of the message. -/
  consumed : ∀ frame m, Frame.decode f frame = .ok m → ∃ rest,
    Frame.Holds frame (f.write m ++ rest) ∧ f.read (f.write m ++ rest) = .ok (m, rest) ∧
      Frame.encode f m = .ok (Frame.wrap (f.write m))
  /-- A byte string that holds no such message is refused as malformed. -/
  refused : ∀ frame,
    (¬ ∃ m, (∀ e ∈ endpoints m, e.Unqualified) ∧ ∃ rest, Frame.Holds frame (f.write m ++ rest)) ↔
      ∃ text, Frame.decode f frame = .error (.network (.deserialization text))
  /-- So is what was written of a message and cut off, with the length that is left in its head. -/
  truncated : ∀ m body, (f.write m).length < Format.maxLength → body <+: f.write m →
    body ≠ f.write m → body.length < UInt32.size →
      ∃ text, Frame.decode f (Frame.wrap body) = .error (.network (.deserialization text))
  /-- So is a frame that has become longer or shorter while its head stayed as it was, as far as the
  head is left. -/
  resized : ∀ frame body changed, Frame.Holds frame body → changed.take 4 <+: frame.take 4 →
    changed.length ≠ frame.length →
      ∃ text, Frame.decode f changed = .error (.network (.deserialization text))

/-- A canonical format that carries its messages is exact. -/
theorem exact_of_canonical {α : Type} {f : Format α} {shown : α → α}
    {endpoints : α → List Endpoint} (hcanonical : f.Canonical shown) (hcarries : f.Carries shown)
    (hfixed : ∀ m, shown m = m ↔ ∀ e ∈ endpoints m, e.Unqualified) : Exact f endpoints := by
  have haccepted (frame : Bytes) (m : α) : Frame.decode f frame = .ok m ↔
      (∀ e ∈ endpoints m, e.Unqualified) ∧ ∃ rest, Frame.Holds frame (f.write m ++ rest) := by
    rw [← hfixed]
    exact Frame.decode_eq_ok_iff_holds hcanonical hcarries
  refine ⟨haccepted, fun frame m h => ?_, fun frame => ?_, fun m body hlong hbegins hne hlt => ?_,
    fun frame body changed hbody hhead hlen => ?_⟩
  · obtain ⟨-, rest, hbody, hread⟩ := Frame.read_of_decode hcanonical h
    have hshort := (Frame.holds_iff.mp hbody).2
    rw [List.length_append] at hshort
    exact ⟨rest, hbody, hread, Frame.encode_of_lt (Nat.lt_of_le_of_lt (Nat.le_add_right _ _) hshort)⟩
  · simp only [Frame.decode_refused_iff, ← haccepted, not_exists, ne_eq]
  · rw [Frame.decode_refused_iff]
    exact Frame.decode_truncated_ne_ok hcanonical hcarries hlong hbegins hne hlt
  · rw [Frame.decode_refused_iff]
    exact Frame.decode_resized_ne_ok hbody hhead hlen

/-- Requests and replies are read from their frames alone. -/
theorem frames_exact :
    Exact Format.request Request.endpoints ∧ Exact Format.reply Reply.endpoints :=
  ⟨exact_of_canonical Format.canonical_request Format.carries_request fun _ =>
      Request.unscoped_eq_self_iff,
    exact_of_canonical Format.canonical_reply Format.carries_reply fun _ =>
      Reply.unscoped_eq_self_iff⟩

/-- A lookup of a grain, forwarded twice. -/
def strayLookup : Request := .single (.lookup ⟨⟨⟨"g"⟩, "k"⟩, 5⟩) 2

/-- A lookup with a byte behind it is read, and refused when a byte of it is missing, or when the byte
behind it is not counted. -/
theorem frames_exact_stray :
    Frame.decode Format.request (Frame.wrap (Format.request.write strayLookup ++ [7])) =
        .ok strayLookup ∧
      (∃ text, Frame.decode Format.request (Frame.wrap (Format.request.write strayLookup).dropLast) =
        .error (.network (.deserialization text))) ∧
      ∃ text, Frame.decode Format.request (Frame.wrap (Format.request.write strayLookup) ++ [7]) =
        .error (.network (.deserialization text)) := by
  have hframe : Frame.Holds (Frame.wrap (Format.request.write strayLookup))
      (Format.request.write strayLookup) := Frame.holds_iff.mpr ⟨rfl, by decide⟩
  refine ⟨(frames_exact.1.accepted _ strayLookup).mpr ⟨nofun, [7], ?_⟩, ?_, ?_⟩
  · exact Frame.holds_iff.mpr ⟨rfl, by decide⟩
  · exact frames_exact.1.truncated strayLookup _ (by decide) (List.dropLast_prefix _) (by decide)
      (by decide)
  · exact frames_exact.1.resized _ _ _ hframe (by decide) (by decide)

end GrainDirectory

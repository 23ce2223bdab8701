import GrainDirectory.Proofs.BatchRemoval
set_option autoImplicit false

/-!
# How one service delivers a batch

A service that is given a batch of removals divides it among the owners.  Its own part it removes; every
other owner is sent one call with its part, all side by side.  A batch that has been forwarded already is
divided once more before it is sent on, after a while in which others may have done anything but change
what the service knows of ownership.

The ways to the owners are arbitrary here, and so is what comes of a call over them.
`Cluster.batch_is_delivered` says what the service does up to the moment at which it sends, exactly which
calls it then sets off, and how it replies to what comes back.
-/

namespace GrainDirectory

namespace Cluster

open Service

variable {ways : Ways} {others : Cluster → Cluster} {i : ServiceId} {addresses : List GrainAddress}
  {cause : RemovalCause} {hop : UInt32} {c : Cluster}

/-! ## What comes of the calls -/

/-- What comes of letters that are sent over the ways seen in some state: the replies to them and the
state in the end.  Whoever cannot be reached gets nothing; whoever can gets one call, with its letter
and one more hop, whatever came of the letters before it. -/
inductive Posted (ways : Ways) (others : Cluster → Cluster) (cause : RemovalCause) (hop : UInt32)
    (seen : Cluster) : List (Silo × List GrainAddress) → Cluster → List Reply → Cluster → Prop
  | nothing (c : Cluster) : Posted ways others cause hop seen [] c [] c
  | unreachable {owner : Silo} {batch : List GrainAddress}
      {letters : List (Silo × List GrainAddress)} {c c' : Cluster} {replies : List Reply} {e : Error}
      (hway : ways seen owner = .error e)
      (hrest : Posted ways others cause hop seen letters c replies c') :
      Posted ways others cause hop seen ((owner, batch) :: letters) c (.error e :: replies) c'
  | received {owner : Silo} {batch : List GrainAddress}
      {letters : List (Silo × List GrainAddress)} {c d c' : Cluster} {reply : Reply}
      {replies : List Reply} {peer : Peer} (hway : ways seen owner = .ok peer)
      (hcall : (peer (.batch batch cause (hop + 1))).runAmid others c = (reply, d))
      (hrest : Posted ways others cause hop seen letters d replies c') :
      Posted ways others cause hop seen ((owner, batch) :: letters) c (reply :: replies) c'

/-- To send letters is to send each of them. -/
theorem posted_all (ways : Ways) (others : Cluster → Cluster) (cause : RemovalCause) (hop : UInt32)
    (seen : Cluster) (letters : List (Silo × List GrainAddress)) (c : Cluster) :
    ∃ replies c', Posted ways others cause hop seen letters c replies c' ∧
      (Activity.all (letters.map fun l => deliverTo ways seen cause hop l.1 l.2)).runAmid others c =
        (replies, c') := by
  induction letters generalizing c with
  | nil => exact ⟨[], c, .nothing c, rfl⟩
  | cons letter rest ih =>
    obtain ⟨owner, batch⟩ := letter
    cases hway : ways seen owner with
    | error e =>
      have hfirst : (deliverTo ways seen cause hop owner batch).runAmid others c = (.error e, c) := by
        rw [deliverTo, hway]
        rfl
      obtain ⟨replies, c', hposted, hrun⟩ := ih c
      refine ⟨.error e :: replies, c', .unreachable hway hposted, ?_⟩
      rw [List.map_cons, Activity.runAmid_all_cons]
      dsimp only
      rw [hfirst, hrun]
    | ok peer =>
      have hfirst : deliverTo ways seen cause hop owner batch = peer (.batch batch cause (hop + 1)) := by
        rw [deliverTo, hway]
      obtain ⟨replies, c', hposted, hrun⟩ :=
        ih ((peer (.batch batch cause (hop + 1))).runAmid others c).2
      refine ⟨_ :: replies, c', .received hway rfl hposted, ?_⟩
      rw [List.map_cons, hfirst, Activity.runAmid_all_cons, hrun]

/-- The join of some replies is good if all of them are, and otherwise it is one of those that are
not. -/
theorem joinReplies_cases (replies : List Reply) :
    joinReplies replies = .ok .done ∧ (∀ reply ∈ replies, ∃ o, reply = .ok o) ∨
      ∃ e, joinReplies replies = .error e ∧ .error e ∈ replies := by
  induction replies with
  | nil => exact .inl ⟨rfl, nofun⟩
  | cons reply rest ih =>
    cases reply with
    | error e => exact .inr ⟨e, rfl, List.mem_cons_self⟩
    | ok o =>
      rcases ih with ⟨hjoin, hall⟩ | ⟨e, hjoin, hmem⟩
      · exact .inl ⟨hjoin, List.forall_mem_cons.mpr ⟨⟨o, rfl⟩, hall⟩⟩
      · exact .inr ⟨e, hjoin, List.mem_cons_of_mem _ hmem⟩

/-! ## The whole -/

/-- A service refuses a batch for the first of its addresses whose owner cannot be resolved.  It has
counted the call, and done nothing else. -/
def Refuses (ways : Ways) (others : Cluster → Cluster) (i : ServiceId) (addresses : List GrainAddress)
    (cause : RemovalCause) (hop : UInt32) (c : Cluster) : Prop :=
  ∃ before a after e, addresses = before ++ a :: after ∧
    (∀ b ∈ before, (c.service i).Resolves hop b) ∧
    (c.service i).resolver.checkForward a.grain hop Operation.unregisterMany.name = .error e ∧
    (handle ways i (.batch addresses cause hop)).goOn others c = (.done (.error e), c.entered i hop) ∧
    (handle ways i (.batch addresses cause hop)).runAmid others c = (.error e, c.entered i hop)

/-- The addresses of a batch that a service does not send away. -/
def staying (s : Service) (hop : UInt32) (addresses : List GrainAddress) : List GrainAddress :=
  addresses.filter fun a => (s.destination? hop a).isNone

/-- A service delivers a batch by letters to the other owners. -/
structure Delivers (ways : Ways) (others : Cluster → Cluster) (i : ServiceId)
    (addresses : List GrainAddress) (cause : RemovalCause) (hop : UInt32) (c : Cluster)
    (letters : List (Silo × List GrainAddress)) : Prop where
  /-- No owner has two letters. -/
  distinct : letters.Pairwise fun l l' => l.1.id ≠ l'.1.id
  /-- Who has one owns something of the batch. -/
  owner : ∀ l ∈ letters, ∃ a ∈ addresses, (c.service i).destination? hop a = some l.1
  /-- Who owns something of the batch has one. -/
  complete : ∀ a ∈ addresses, ∀ o, (c.service i).destination? hop a = some o →
    ∃ l ∈ letters, l.1.id = o.id
  /-- A letter holds what is its owner's, in the order of the batch. -/
  content : ∀ l ∈ letters,
    l.2 = addresses.filter fun a => ((c.service i).destination? hop a).any fun o => o.id = l.1.id
  /-- What is not sent away is removed once, in the order of the batch. -/
  removed :
    (((c.entered i hop).relieved i cause (staying (c.service i) hop addresses)).service i).books .unregisterMany =
      ⟨(c.service i).partition.removeAll c.clock cause (staying (c.service i) hop addresses),
        ((c.service i).books .unregisterMany).served +
          UInt64.ofNat (staying (c.service i) hop addresses).length⟩
  /-- When the service is ready to send, it has sent nothing yet, and what is left for it to do is to send
  the letters, all side by side, and to join the replies. -/
  ready :
    let seen := c.readied i others cause hop ⟨staying (c.service i) hop addresses, letters⟩
    (handle ways i (.batch addresses cause hop)).goOn others c = (post ways seen cause hop letters, seen)
  /-- If one letter is sent after the other, every owner gets its own. -/
  posted :
    let seen := c.readied i others cause hop ⟨staying (c.service i) hop addresses, letters⟩
    ∃ replies c', Posted ways others cause hop seen letters seen replies c' ∧
      (handle ways i (.batch addresses cause hop)).runAmid others c = (joinReplies replies, c')
  /-- Whatever the replies are, the join of them is good if they all are, and otherwise it is one of those
  that are not. -/
  joined : ∀ replies : List Reply,
    joinReplies replies = .ok .done ∧ (∀ reply ∈ replies, ∃ o, reply = .ok o) ∨
      ∃ e, joinReplies replies = .error e ∧ .error e ∈ replies

theorem books_relieved (hi : i < c.services.length) (here : List GrainAddress) :
    (((c.entered i hop).relieved i cause here).service i).books .unregisterMany =
      ⟨(c.service i).partition.removeAll c.clock cause here,
        ((c.service i).books .unregisterMany).served + UInt64.ofNat here.length⟩ := by
  have hi' : i < (c.entered i hop).services.length := (length_adjust c i _).symm ▸ hi
  rw [relieved, service_adjust_self hi', books_removeAllHere, entered, service_adjust_self hi,
    books_enter, Books.foldl_apply]
  rfl

theorem refuses_of_split
    (hothers : ∀ d : Cluster, ((others d).service i).resolver = (d.service i).resolver) {e : Error}
    (hsplit : (c.service i).split hop addresses = .error e) :
    Refuses ways others i addresses cause hop c := by
  have hready := goOn_handleBatch ways others hothers addresses cause hop c
  have hrun := Activity.runAmid_goOn others (handleBatch ways i addresses cause hop) c
  rw [hsplit] at hready
  rw [hready] at hrun
  obtain ⟨before, a, after, haddresses, hbefore, ha⟩ := exists_first_of_split_error hsplit
  exact ⟨before, a, after, e, haddresses, hbefore, ha, hready, hrun.symm⟩

theorem delivers_of_split
    (hothers : ∀ d : Cluster, ((others d).service i).resolver = (d.service i).resolver)
    (hi : i < c.services.length) {split : Split}
    (hsplit : (c.service i).split hop addresses = .ok split) :
    Delivers ways others i addresses cause hop c split.away := by
  have hhere : split.here = staying (c.service i) hop addresses :=
    congrArg Split.here (eq_of_split hsplit)
  have haway : split.away = (Service.distinct (addresses.filterMap
      ((c.service i).destination? hop))).map fun owner =>
        (owner, bound ((c.service i).destination? hop) addresses owner) :=
    congrArg Split.away (eq_of_split hsplit)
  let seen := c.readied i others cause hop ⟨staying (c.service i) hop addresses, split.away⟩
  have hready : (handleBatch ways i addresses cause hop).goOn others c =
      (post ways seen cause hop split.away, seen) := by
    have h := goOn_handleBatch ways others hothers addresses cause hop c
    rw [hsplit] at h
    simp only [seen, ← hhere]
    exact h
  refine
    { distinct := ?_
      owner := fun l hl => ?_
      complete := fun a ha o ho => ?_
      content := fun l hl => ?_
      removed := books_relieved hi _
      ready := hready
      posted := ?_
      joined := joinReplies_cases }
  · rw [haway]
    exact List.pairwise_map.mpr (pairwise_distinct _)
  · rw [haway] at hl
    obtain ⟨o, ho, rfl⟩ := List.mem_map.mp hl
    exact List.mem_filterMap.mp (mem_of_mem_distinct ho)
  · rw [haway]
    obtain ⟨o', ho', hid⟩ := exists_mem_distinct (List.mem_filterMap.mpr ⟨a, ha, ho⟩)
    exact ⟨_, List.mem_map_of_mem ho', hid⟩
  · rw [haway] at hl
    obtain ⟨o, -, rfl⟩ := List.mem_map.mp hl
    rfl
  · obtain ⟨replies, c', hposted, hall⟩ := posted_all ways others cause hop seen split.away seen
    have hrun := Activity.runAmid_goOn others (handleBatch ways i addresses cause hop) c
    rw [hready, post, Activity.runAmid_bind, hall] at hrun
    exact ⟨replies, c', hposted, hrun.symm⟩

/-- A batch of removals is refused, or it is delivered completely: whatever the ways to the owners are,
whatever they reply, and whatever others do while the service waits, as long as they do not change what
it knows of ownership. -/
theorem batch_is_delivered (ways : Ways) (others : Cluster → Cluster) {i : ServiceId}
    (hothers : ∀ d : Cluster, ((others d).service i).resolver = (d.service i).resolver)
    (addresses : List GrainAddress) (cause : RemovalCause) (hop : UInt32) {c : Cluster}
    (hi : i < c.services.length) :
    Refuses ways others i addresses cause hop c ∨
      (∀ a ∈ addresses, (c.service i).Resolves hop a) ∧
        ∃ letters, Delivers ways others i addresses cause hop c letters := by
  cases hsplit : (c.service i).split hop addresses with
  | error e => exact .inl (refuses_of_split hothers hsplit)
  | ok split => exact .inr ⟨resolves_of_split hsplit, split.away, delivers_of_split hothers hi hsplit⟩

/-! ### A batch for two other owners -/

def unreachableSilo : Silo := ⟨⟨.v4 1 2, 1⟩, 100⟩

def reachableSilo : Silo := ⟨⟨.v4 1 3, 1⟩, 200⟩

/-- To one of two silos there is no way.  At the other every call is noted and replied to well. -/
def oneWayOpen : Ways := fun _ target =>
  if target.id = unreachableSilo.id then .error (.unreachable unreachableSilo)
  else .ok fun request => do
    .update fun c => c.log target request
    pure (.ok .done)

/-- An activation, on the silo that can be reached, of a grain at some place on the ring. -/
def activationAt (key : String) (place : UInt32) : GrainAddress :=
  ⟨⟨⟨⟨"user"⟩, key⟩, place⟩, ⟨1⟩, reachableSilo⟩

/-- A service at place 10 on a ring with both silos, where one grain is registered. -/
def betweenOwners : Cluster :=
  let home : Silo := ⟨⟨.v4 1 1, 1⟩, 10⟩
  { services :=
      [{ label := "a"
         home := home
         config := {}
         ring := Ring.ofList [home, unreachableSilo, reachableSilo]
         running := true
         partition := { entries := Table.empty.put ⟨activationAt "h" 5, 1, 0⟩, nextTag := 2, lazyDelay := 0 }
         cache := {} }] }

theorem batch_is_delivered_betweenOwners :
    let batch := [activationAt "n" 60, activationAt "h" 5, activationAt "s" 150, activationAt "o" 70]
    let later : Cluster → Cluster := fun d => d.elapse 7
    let r := (handle oneWayOpen 0 (.batch batch .force 1)).runAmid later betweenOwners
    (∀ d : Cluster, ((later d).service 0).resolver = (d.service 0).resolver) ∧
      0 < betweenOwners.services.length ∧
      (Refuses oneWayOpen later 0 batch .force 1 betweenOwners ∨
        (∀ a ∈ batch, (betweenOwners.service 0).Resolves 1 a) ∧
          ∃ letters, Delivers oneWayOpen later 0 batch .force 1 betweenOwners letters) ∧
      r.1 = .error (.unreachable unreachableSilo) ∧ r.2.calls = [⟨reachableSilo, .unregisterMany, 2⟩] ∧
      (r.2.service 0).partition.size = 0 ∧ r.2.clock = 7 :=
  ⟨fun _ => rfl, by decide,
    batch_is_delivered oneWayOpen (fun d => d.elapse 7) (fun _ => rfl) _ .force 1 (by decide),
    by decide, by decide, by decide, by decide⟩

end Cluster

end GrainDirectory

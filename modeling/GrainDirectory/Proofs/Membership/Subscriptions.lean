import GrainDirectory.Proofs.Membership.Foresight
set_option autoImplicit false

/-!
# A subscription is a log of changes

Whoever subscribes to an oracle finds in the inbox, in order and once each, the reports since then that
did not repeat what was on record when they came.  What has been taken out of the inbox and what still
waits in it is this log as long as the subscription lasts and the inbox is kept; and the statuses that
were on record at the subscription, followed by the log, are the statuses on record now.

An oracle forgets a subscription whose inbox has been given up, and does so while it passes news on.
What is done with an inbox is seen in that inbox alone: `find?_use` says what each use of an oracle makes
of one inbox, and the rest follows from it use by use.

The main statement is `subscription_faithful`.
-/

namespace GrainDirectory

namespace Oracle

/-! ## Uses of an oracle -/

/-- What may be done with an oracle and with the inboxes that it has opened. -/
inductive Use where
  | report (s : Silo) (status : SiloStatus)
  | subscribe
  | unsubscribe (id : Nat)
  | giveUp (id : Nat)
  | take (id : Nat)
  | drain (id : Nat)
  deriving DecidableEq, Repr

/-- The oracle after a use. -/
def use (o : Oracle) : Use → Oracle
  | .report s status => o.setStatus s status
  | .subscribe => o.subscribe.2
  | .unsubscribe id => o.unsubscribe id
  | .giveUp id => o.giveUp id
  | .take id =>
    match o.take id with
    | some (_, o') => o'
    | none => o
  | .drain id =>
    match o.drain id with
    | some (_, o') => o'
    | none => o

/-- The oracle after some uses, one after the other. -/
def after (o : Oracle) (uses : List Use) : Oracle := uses.foldl use o

/-- The status on record for an identity, if there has been a report about it. -/
def recorded (o : Oracle) (i : SiloId) : Option SiloStatus := (o.reports.find? i).map (·.status)

/-- What a use reports that is not on record already. -/
def news (o : Oracle) : Use → List StatusEvent
  | .report s status => if o.recorded s.id = some status then [] else [⟨s, status⟩]
  | _ => []

theorem news_report (o : Oracle) (s : Silo) (status : SiloStatus) : o.news (.report s status) =
    if o.recorded s.id = some status then [] else [⟨s, status⟩] := rfl

/-- What a use takes out of an inbox. -/
def taken (o : Oracle) (id : Nat) : Use → List StatusEvent
  | .take id' =>
    if id' = id then
      match o.take id with
      | some (e, _) => [e]
      | none => []
    else []
  | .drain id' =>
    if id' = id then
      match o.drain id with
      | some ((events, _), _) => events
      | none => []
    else []
  | _ => []

/-- The reports among some uses that did not repeat what was on record when they were made. -/
def newsThrough (o : Oracle) : List Use → List StatusEvent
  | [] => []
  | u :: rest => o.news u ++ (o.use u).newsThrough rest

/-- What some uses take out of an inbox, one after the other. -/
def takenThrough (o : Oracle) (id : Nat) : List Use → List StatusEvent
  | [] => []
  | u :: rest => o.taken id u ++ (o.use u).takenThrough id rest

/-- The reports among some uses, news or not. -/
def Use.reports (uses : List Use) : List StatusEvent :=
  uses.filterMap fun
    | .report s status => some ⟨s, status⟩
    | _ => none

/-- Of some reports those that do not repeat what is known when they come. -/
def changes (known : SiloId → Option SiloStatus) : List StatusEvent → List StatusEvent
  | [] => []
  | e :: rest =>
    if known e.silo.id = some e.status then changes known rest
    else e :: changes (Function.update known e.silo.id (some e.status)) rest

/-- What is known once some events have been followed. -/
def replay (known : SiloId → Option SiloStatus) (events : List StatusEvent) :
    SiloId → Option SiloStatus :=
  events.foldl (fun known e => Function.update known e.silo.id (some e.status)) known

/-- Whether an inbox is still kept and events still go into it. -/
def Follows (o : Oracle) (id : Nat) : Prop :=
  ∃ b, o.inboxes.find? id = some b ∧ b.Open

/-- Whether no events go into an inbox any more. -/
def Ended (o : Oracle) (id : Nat) : Prop :=
  ∀ b, o.inboxes.find? id = some b → b.subscribed = false

variable {o : Oracle} {id : Nat} {u : Use}

theorem status_eq_recorded (o : Oracle) (x : Silo) : o.status x = (o.recorded x.id).getD .none := by
  unfold status recorded
  cases o.reports.find? x.id <;> rfl

theorem recorded_of_reports_eq {o' : Oracle} (h : o'.reports = o.reports) :
    o'.recorded = o.recorded := by
  funext i
  rw [recorded, recorded, h]

/-- A report is passed on exactly if it does not repeat what is on record. -/
theorem setStatus_eq (o : Oracle) (s : Silo) (status : SiloStatus) :
    o.setStatus s status =
      if o.recorded s.id = some status then o else (o.record s status).notify ⟨s, status⟩ := by
  unfold setStatus recorded
  cases o.reports.find? s.id with
  | none => rfl
  | some r =>
    dsimp only [Option.map_some]
    simp only [Option.some.injEq]

theorem after_append (o : Oracle) (uses rest : List Use) :
    o.after (uses ++ rest) = (o.after uses).after rest := by
  rw [after, after, after, List.foldl_append]

/-! ## One use and one inbox -/

/-- What becomes of an inbox through a use of its oracle, given the news of the use. -/
def Use.onInbox (news : List StatusEvent) (b : Inbox) : Use → Option Inbox
  | .report _ _ =>
    match news with
    | [] => some b
    | e :: _ => if b.held then some (Inbox.receive e b) else none
  | .subscribe => some b
  | .unsubscribe id =>
    if b.id = id then if b.held then some { b with subscribed := false } else none else some b
  | .giveUp id =>
    if b.id = id then if b.subscribed then some { b with held := false } else none else some b
  | .take id => if b.id = id then some { b with queue := b.queue.tail } else some b
  | .drain id => if b.id = id ∧ b.held = true then some { b with queue := [] } else some b

theorem find?_notified (o : Oracle) (e : StatusEvent) (id : Nat) :
    (o.notify e).inboxes.find? id =
      (o.inboxes.find? id).bind fun b => if b.held then some (Inbox.receive e b) else none := by
  unfold notify
  rw [Table.find?_change, Table.find?_filter]
  cases o.inboxes.find? id with
  | none => rfl
  | some b => cases hheld : b.held <;> simp [Option.filter, hheld]

theorem find?_settle (o : Oracle) (b : Inbox) (id : Nat) :
    (o.settle b).inboxes.find? id =
      if id = b.id then if b.subscribed || b.held then some b else none
      else o.inboxes.find? id := by
  unfold settle
  dsimp only
  split
  · rw [Table.find?_put]
  · rw [Table.find?_erase]

theorem touches_drain {o' : Oracle} {events : List StatusEvent} {closed : Bool}
    (h : o.drain id = some ((events, closed), o')) : o.Touches (some id) o' := by
  unfold drain at h
  split at h
  · cases h
  · rename_i b hb
    obtain rfl : b.id = id := Table.key_of_find? hb
    split at h
    · cases h
      refine ⟨rfl, rfl, fun id' hid => ?_⟩
      dsimp only
      rw [Table.find?_put, if_neg fun heq => hid (congrArg some heq.symm)]
    · cases h

/-- The inbox that a use is about, if it is about one. -/
def Use.inbox? : Use → Option Nat
  | .report _ _ => none
  | .subscribe => none
  | .unsubscribe id => some id
  | .giveUp id => some id
  | .take id => some id
  | .drain id => some id

/-- A use that is about an inbox touches no other. -/
theorem touches_use (hid : u.inbox? = some id) : o.Touches (some id) (o.use u) := by
  cases u with
  | report s status => cases hid
  | subscribe => cases hid
  | unsubscribe id' =>
    cases hid
    exact o.touches_unsubscribe id
  | giveUp id' =>
    cases hid
    exact o.touches_giveUp id
  | take id' =>
    cases hid
    dsimp only [use]
    split
    · rename_i htake
      exact touches_take htake
    · exact .refl o _
  | drain id' =>
    cases hid
    dsimp only [use]
    split
    · rename_i hdrain
      exact touches_drain hdrain
    · exact .refl o _

theorem onInbox_of_ne {news : List StatusEvent} {b : Inbox} (h : u.inbox? = some id)
    (hne : b.id ≠ id) : u.onInbox news b = some b := by
  cases u <;> cases h <;> simp [Use.onInbox, hne]

/-- What becomes of the inbox that a use is about. -/
theorem find?_use_self (h : u.inbox? = some id) :
    (o.use u).inboxes.find? id = (o.inboxes.find? id).bind fun b => u.onInbox (o.news u) b := by
  cases hb : o.inboxes.find? id with
  | none =>
    cases u <;> cases h <;>
      simp [use, unsubscribe, giveUp, take, drain, hb]
  | some b =>
    obtain rfl : b.id = id := Table.key_of_find? hb
    cases u with
    | report s status => cases h
    | subscribe => cases h
    | unsubscribe id' =>
      cases h
      simp [use, unsubscribe, hb, find?_settle, Use.onInbox]
    | giveUp id' =>
      cases h
      simp [use, giveUp, hb, find?_settle, Use.onInbox]
    | take id' =>
      cases h
      cases hqueue : b.queue with
      | nil =>
        have hsame : { b with queue := [] } = b := by rw [← hqueue]
        simp [use, take, hb, hqueue, Use.onInbox, hsame]
      | cons e rest => simp [use, take, hb, hqueue, Use.onInbox]
    | drain id' =>
      cases h
      cases hheld : b.held <;> simp [use, drain, hb, hheld, Use.onInbox]

/-- What a use makes of any inbox that has been opened. -/
theorem find?_use (hid : id < o.nextId) (u : Use) :
    (o.use u).inboxes.find? id = (o.inboxes.find? id).bind fun b => u.onInbox (o.news u) b := by
  have hself : (o.inboxes.find? id).bind some = o.inboxes.find? id := by
    cases o.inboxes.find? id <;> rfl
  cases hu : u.inbox? with
  | some id' =>
    by_cases heq : id' = id
    · exact find?_use_self (heq ▸ hu)
    · rw [(touches_use hu).others id fun hsome => heq (Option.some.inj hsome)]
      cases hb : o.inboxes.find? id with
      | none => rfl
      | some b =>
        have hne : b.id ≠ id' := fun h => heq (h.symm.trans (Table.key_of_find? hb))
        exact (onInbox_of_ne hu hne).symm
  | none =>
    cases u with
    | report s status =>
      show (o.setStatus s status).inboxes.find? id = _
      rw [setStatus_eq]
      by_cases hrepeat : o.recorded s.id = some status
      · rw [if_pos hrepeat, news_report, if_pos hrepeat]
        exact hself.symm
      · obtain ⟨place, -, hrecord⟩ := o.record_eq s status
        rw [if_neg hrepeat, news_report, if_neg hrepeat, find?_notified, hrecord]
        rfl
    | subscribe =>
      show (o.inboxes.put { id := o.nextId }).find? id = _
      rw [Table.find?_put, if_neg (Nat.ne_of_lt hid)]
      exact hself.symm
    | unsubscribe id' => cases hu
    | giveUp id' => cases hu
    | take id' => cases hu
    | drain id' => cases hu

/-! ## One use and what it leaves in an inbox -/

/-- What a use takes out of an inbox. -/
def Use.fromInbox (b : Inbox) : Use → List StatusEvent
  | .take id => if b.id = id then b.queue.take 1 else []
  | .drain id => if b.id = id ∧ b.held = true then b.queue else []
  | _ => []

theorem taken_eq {b : Inbox} (hb : o.inboxes.find? id = some b) (u : Use) :
    o.taken id u = u.fromInbox b := by
  obtain rfl : b.id = id := Table.key_of_find? hb
  cases u with
  | report s status => rfl
  | subscribe => rfl
  | unsubscribe id' => rfl
  | giveUp id' => rfl
  | take id' =>
    dsimp only [taken, Use.fromInbox]
    by_cases hid : id' = b.id
    · cases hqueue : b.queue <;> simp [hid, take, hb, hqueue]
    · rw [if_neg hid, if_neg fun h => hid h.symm]
  | drain id' =>
    dsimp only [taken, Use.fromInbox]
    by_cases hid : id' = b.id
    · rw [if_pos hid, drain, hb]
      cases hheld : b.held <;> simp [hheld, hid]
    · rw [if_neg hid, if_neg fun h => hid h.1.symm]

theorem taken_of_find?_eq_none (hb : o.inboxes.find? id = none) (u : Use) : o.taken id u = [] := by
  cases u <;> simp [taken, take, drain, hb]

theorem waiting_eq {b : Inbox} (hb : o.inboxes.find? id = some b) : o.waiting id = b.queue := by
  rw [waiting, hb]

theorem waiting_of_find?_eq_none (hb : o.inboxes.find? id = none) : o.waiting id = [] := by
  rw [waiting, hb]

/-- Whatever a use takes out of an inbox or puts into it, the inbox loses nothing and repeats nothing: as
long as it takes events, it gains the news, and otherwise nothing. -/
theorem queue_of_onInbox {b b' : Inbox} (h : u.onInbox (o.news u) b = some b') :
    u.fromInbox b ++ b'.queue = b.queue ++ if b.subscribed then o.news u else [] := by
  cases u with
  | report s status =>
    rw [news_report] at h ⊢
    by_cases hrepeat : o.recorded s.id = some status
    · rw [if_pos hrepeat] at h ⊢
      cases h
      simp [Use.fromInbox]
    · rw [if_neg hrepeat] at h ⊢
      dsimp only [Use.onInbox] at h
      split at h
      · cases h
        unfold Inbox.receive Use.fromInbox
        cases hsubscribed : b.subscribed <;> simp
      · cases h
  | subscribe =>
    cases h
    simp [Use.fromInbox, news]
  | unsubscribe id' =>
    dsimp only [Use.onInbox] at h
    split_ifs at h <;> cases h <;> simp [Use.fromInbox, news]
  | giveUp id' =>
    dsimp only [Use.onInbox] at h
    split_ifs at h <;> cases h <;> simp [Use.fromInbox, news]
  | take id' =>
    dsimp only [Use.onInbox] at h
    split_ifs at h with hid <;> cases h <;> cases hqueue : b.queue <;>
      simp [Use.fromInbox, news, hid, hqueue]
  | drain id' =>
    dsimp only [Use.onInbox] at h
    split_ifs at h with hid <;> cases h <;> simp [Use.fromInbox, news, hid]

theorem fromInbox_prefix (b : Inbox) (u : Use) : u.fromInbox b <+: b.queue := by
  cases u with
  | report s status => exact List.nil_prefix
  | subscribe => exact List.nil_prefix
  | unsubscribe id => exact List.nil_prefix
  | giveUp id => exact List.nil_prefix
  | take id =>
    dsimp only [Use.fromInbox]
    split
    · exact List.take_prefix 1 b.queue
    · exact List.nil_prefix
  | drain id =>
    dsimp only [Use.fromInbox]
    split
    · exact List.prefix_rfl
    · exact List.nil_prefix

/-- A subscription lasts until it is ended, and an inbox is kept until it is given up. -/
theorem onInbox_flags {news : List StatusEvent} {b b' : Inbox} (h : u.onInbox news b = some b') :
    (b'.subscribed = true ↔ b.subscribed = true ∧ u ≠ .unsubscribe b.id) ∧
      (b'.held = true ↔ b.held = true ∧ u ≠ .giveUp b.id) := by
  cases u with
  | report s status =>
    cases news with
    | nil =>
      cases h
      simp
    | cons e rest =>
      dsimp only [Use.onInbox] at h
      split at h
      · cases h
        unfold Inbox.receive
        split <;> simp
      · cases h
  | subscribe =>
    cases h
    simp
  | unsubscribe id =>
    dsimp only [Use.onInbox] at h
    split_ifs at h with hid <;> cases h <;> simp [hid, Ne.symm]
  | giveUp id =>
    dsimp only [Use.onInbox] at h
    split_ifs at h with hid <;> cases h <;> simp [hid, Ne.symm]
  | take id =>
    dsimp only [Use.onInbox] at h
    split_ifs at h <;> cases h <;> simp
  | drain id =>
    dsimp only [Use.onInbox] at h
    split_ifs at h <;> cases h <;> simp

/-- An inbox that is kept, or a subscription that lasts, does not go away with somebody else's. -/
theorem exists_onInbox (news : List StatusEvent) {b : Inbox} (hsubscribed : b.subscribed = true)
    (hheld : b.held = true) (u : Use) : ∃ b', u.onInbox news b = some b' := by
  cases u with
  | report s status => cases news <;> simp [Use.onInbox, hheld]
  | subscribe => exact ⟨b, rfl⟩
  | unsubscribe id =>
    by_cases hid : b.id = id <;> simp [Use.onInbox, hid, hheld]
  | giveUp id =>
    by_cases hid : b.id = id <;> simp [Use.onInbox, hid, hsubscribed]
  | take id =>
    by_cases hid : b.id = id <;> simp [Use.onInbox, hid]
  | drain id =>
    by_cases hid : b.id = id <;> simp [Use.onInbox, hid, hheld]

theorem nextId_use (o : Oracle) (u : Use) : o.nextId ≤ (o.use u).nextId := by
  cases hu : u.inbox? with
  | some id => exact (touches_use hu).nextId.ge
  | none =>
    cases u with
    | report s status => exact (o.nextId_setStatus s status).ge
    | subscribe => exact Nat.le_succ _
    | unsubscribe id => cases hu
    | giveUp id => cases hu
    | take id => cases hu
    | drain id => cases hu

/-- A use changes the record by its news. -/
theorem recorded_use (o : Oracle) (u : Use) : (o.use u).recorded = replay o.recorded (o.news u) := by
  cases hu : u.inbox? with
  | some id =>
    rw [recorded_of_reports_eq (touches_use hu).reports]
    cases u with
    | report s status => cases hu
    | _ => rfl
  | none =>
    cases u with
    | report s status =>
      show (o.setStatus s status).recorded = _
      rw [setStatus_eq, news_report]
      split
      · rfl
      · obtain ⟨place, hplace, hrecord⟩ := o.record_eq s status
        funext i
        show ((o.record s status).reports.find? i).map (·.status) =
          Function.update o.recorded s.id (some status) i
        rw [hrecord]
        dsimp only
        rw [Table.find?_put, Function.update_apply, hplace]
        by_cases hi : i = s.id
        · rw [if_pos hi, if_pos hi]
          rfl
        · rw [if_neg hi, if_neg hi]
          rfl
    | subscribe => rfl
    | unsubscribe id => cases hu
    | giveUp id => cases hu
    | take id => cases hu
    | drain id => cases hu

/-- An inbox is followed until its subscription is ended or it is given up. -/
theorem follows_use_iff (hid : id < o.nextId) :
    (o.use u).Follows id ↔ o.Follows id ∧ u ≠ .unsubscribe id ∧ u ≠ .giveUp id := by
  unfold Follows
  rw [find?_use hid u]
  cases hb : o.inboxes.find? id with
  | none => simp
  | some b =>
    obtain rfl : b.id = id := Table.key_of_find? hb
    constructor
    · rintro ⟨b', hb', hsubscribed, hheld⟩
      obtain ⟨hlasts, hkeeps⟩ := onInbox_flags hb'
      obtain ⟨hsubscribed, hends⟩ := hlasts.mp hsubscribed
      obtain ⟨hheld, hgives⟩ := hkeeps.mp hheld
      exact ⟨⟨b, rfl, hsubscribed, hheld⟩, hends, hgives⟩
    · rintro ⟨⟨b', hb', hsubscribed, hheld⟩, hends, hgives⟩
      cases hb'
      obtain ⟨b', hb'⟩ := exists_onInbox (o.news u) hsubscribed hheld u
      obtain ⟨hlasts, hkeeps⟩ := onInbox_flags hb'
      exact ⟨b', hb', hlasts.mpr ⟨hsubscribed, hends⟩, hkeeps.mpr ⟨hheld, hgives⟩⟩

/-- What is taken out of a followed inbox and what then waits in it are what waited and the news. -/
theorem log_use (hid : id < o.nextId) (h : (o.use u).Follows id) :
    o.taken id u ++ (o.use u).waiting id = o.waiting id ++ o.news u := by
  obtain ⟨⟨b, hb, hsubscribed, -⟩, -⟩ := (follows_use_iff hid).mp h
  obtain ⟨b', hb', -⟩ := h
  have hafter := find?_use hid u
  rw [hb', hb, Option.bind_some] at hafter
  have hqueue := queue_of_onInbox hafter.symm
  rw [if_pos hsubscribed] at hqueue
  rw [taken_eq hb, waiting_eq hb', waiting_eq hb, hqueue]

/-- Once a subscription has ended, its inbox only empties. -/
theorem ended_use (hid : id < o.nextId) (h : o.Ended id) (u : Use) :
    (o.use u).Ended id ∧ o.taken id u ++ (o.use u).waiting id <+: o.waiting id ∧
      ((o.use u).holds id = true →
        o.holds id = true ∧ o.taken id u ++ (o.use u).waiting id = o.waiting id) := by
  have hafter := find?_use hid u
  cases hb : o.inboxes.find? id with
  | none =>
    rw [hb, Option.bind_none] at hafter
    refine ⟨fun b' hb' => ?_, ?_, fun hholds => ?_⟩
    · rw [hafter] at hb'
      cases hb'
    · rw [taken_of_find?_eq_none hb, waiting_of_find?_eq_none hafter]
      exact List.nil_prefix
    · rw [holds, hafter] at hholds
      cases hholds
  | some b =>
    obtain rfl : b.id = id := Table.key_of_find? hb
    have hended := h b hb
    rw [hb, Option.bind_some] at hafter
    cases hb' : (o.use u).inboxes.find? b.id with
    | none =>
      refine ⟨fun b' h' => ?_, ?_, fun hholds => ?_⟩
      · rw [hb'] at h'
        cases h'
      · rw [taken_eq hb, waiting_of_find?_eq_none hb', List.append_nil, waiting_eq hb]
        exact fromInbox_prefix b u
      · rw [holds, hb'] at hholds
        cases hholds
    | some b' =>
      rw [hb'] at hafter
      obtain ⟨hlasts, hkeeps⟩ := onInbox_flags hafter.symm
      have hqueue := queue_of_onInbox hafter.symm
      rw [hended, if_neg Bool.false_ne_true, List.append_nil] at hqueue
      have heq : o.taken b.id u ++ (o.use u).waiting b.id = o.waiting b.id := by
        rw [taken_eq hb, waiting_eq hb', waiting_eq hb, hqueue]
      refine ⟨fun b'' h'' => ?_, heq ▸ List.prefix_rfl, fun hholds => ⟨?_, heq⟩⟩
      · rw [hb'] at h''
        cases h''
        rw [← Bool.not_eq_true, hlasts, hended]
        exact fun hand => Bool.false_ne_true hand.1
      · rw [holds, hb'] at hholds
        rw [holds, hb]
        exact (hkeeps.mp hholds).1

/-! ## A run of uses -/

theorem after_cons (o : Oracle) (u : Use) (rest : List Use) :
    o.after (u :: rest) = (o.use u).after rest := rfl

theorem lt_nextId_use (hid : id < o.nextId) (u : Use) : id < (o.use u).nextId :=
  Nat.lt_of_lt_of_le hid (o.nextId_use u)

theorem follows_after_iff (hid : id < o.nextId) (uses : List Use) :
    (o.after uses).Follows id ↔ o.Follows id ∧ .unsubscribe id ∉ uses ∧ .giveUp id ∉ uses := by
  induction uses generalizing o with
  | nil => simp [after]
  | cons u rest ih =>
    rw [after_cons, ih (lt_nextId_use hid u), follows_use_iff hid]
    simp only [List.mem_cons, not_or, ne_eq, eq_comm (a := u)]
    tauto

/-- What has been taken out of a followed inbox and what waits in it are what waited and the news. -/
theorem log_after (hid : id < o.nextId) {uses : List Use} (h : (o.after uses).Follows id) :
    o.takenThrough id uses ++ (o.after uses).waiting id = o.waiting id ++ o.newsThrough uses := by
  induction uses generalizing o with
  | nil => exact (List.append_nil _).symm
  | cons u rest ih =>
    have hid' := lt_nextId_use hid u
    have hfollows : (o.use u).Follows id := ((follows_after_iff hid' rest).mp h).1
    rw [takenThrough, newsThrough, after_cons, List.append_assoc, ih hid' h, ← List.append_assoc,
      log_use hid hfollows, List.append_assoc]

/-- An inbox whose subscription has ended only empties. -/
theorem ended_after (hid : id < o.nextId) (h : o.Ended id) (uses : List Use) :
    o.takenThrough id uses ++ (o.after uses).waiting id <+: o.waiting id ∧
      ((o.after uses).holds id = true → o.holds id = true ∧
        o.takenThrough id uses ++ (o.after uses).waiting id = o.waiting id) := by
  induction uses generalizing o with
  | nil => exact ⟨List.prefix_rfl, fun hholds => ⟨hholds, rfl⟩⟩
  | cons u rest ih =>
    obtain ⟨hended, hfirst, hfirstKept⟩ := ended_use hid h u
    obtain ⟨hrest, hrestKept⟩ := ih (lt_nextId_use hid u) hended
    rw [takenThrough, after_cons, List.append_assoc]
    refine ⟨((List.prefix_append_right_inj _).mpr hrest).trans hfirst, fun hholds => ?_⟩
    obtain ⟨hholds, hrestEq⟩ := hrestKept hholds
    rw [hrestEq]
    exact hfirstKept hholds

/-- The record follows from the news. -/
theorem recorded_after (o : Oracle) (uses : List Use) :
    (o.after uses).recorded = replay o.recorded (o.newsThrough uses) := by
  induction uses generalizing o with
  | nil => rfl
  | cons u rest ih =>
    rw [after_cons, ih, recorded_use, newsThrough]
    exact List.foldl_append.symm

/-- Which reports are news depends on the reports alone. -/
theorem newsThrough_eq_changes (o : Oracle) (uses : List Use) :
    o.newsThrough uses = changes o.recorded (Use.reports uses) := by
  induction uses generalizing o with
  | nil => rfl
  | cons u rest ih =>
    rw [newsThrough, ih, recorded_use]
    cases u with
    | report s status =>
      show _ = changes o.recorded (⟨s, status⟩ :: Use.reports rest)
      rw [news_report, changes]
      split
      · rfl
      · rfl
    | _ => rfl

/-- No identity is listed twice among those that are functional. -/
theorem nodup_functionalSilos (o : Oracle) : (o.functionalSilos.map Silo.id).Nodup := by
  unfold functionalSilos
  rw [List.map_map]
  exact o.reports.unique.sublist (List.filter_sublist.map _)

/-- Nothing goes into an inbox whose subscription has been ended. -/
theorem ended_unsubscribe (hid : id < o.nextId) : (o.unsubscribe id).Ended id := by
  intro b' hb'
  have hafter := find?_use hid (.unsubscribe id)
  cases hb : o.inboxes.find? id with
  | none =>
    rw [hb] at hafter
    cases hb'.symm.trans hafter
  | some b =>
    obtain rfl : b.id = id := Table.key_of_find? hb
    rw [hb, Option.bind_some] at hafter
    have hflags := (onInbox_flags (hafter.symm.trans hb')).1
    rw [← Bool.not_eq_true, hflags]
    exact fun hand => hand.2 rfl

theorem nextId_after (o : Oracle) (uses : List Use) : o.nextId ≤ (o.after uses).nextId :=
  List.foldlRecOn uses use (motive := fun o' => o.nextId ≤ o'.nextId) (Nat.le_refl _)
    fun o' h u _ => h.trans (o'.nextId_use u)

end Oracle

/-- What a subscription that has just been made promises of every run of uses of its oracle. -/
structure FaithfulLog (o : Oracle) (id : Nat) (uses : List Oracle.Use) : Prop where
  /-- The inbox is followed until its subscription is ended or it is given up, whatever is done with
  other inboxes. -/
  followed : (o.after uses).Follows id ↔ .unsubscribe id ∉ uses ∧ .giveUp id ∉ uses
  /-- What has been taken out of it, and then what waits in it, are the reports that did not repeat what
  was on record when they were made, in order and once each. -/
  log : (o.after uses).Follows id →
    o.takenThrough id uses ++ (o.after uses).waiting id = o.newsThrough uses
  /-- These depend on the reports alone. -/
  independent : o.newsThrough uses = Oracle.changes o.recorded (Oracle.Use.reports uses)
  /-- Replayed on what was on record at the subscription they give what is on record, -/
  replayed : (o.after uses).Follows id →
    Oracle.replay o.recorded (o.takenThrough id uses ++ (o.after uses).waiting id) =
      (o.after uses).recorded
  /-- and so the status of every silo. -/
  statuses : (o.after uses).Follows id → ∀ x, (o.after uses).status x =
    (Oracle.replay o.recorded (o.takenThrough id uses ++ (o.after uses).waiting id) x.id).getD .none
  /-- Once the subscription is ended, nothing is taken out of the inbox that does not wait in it then, -/
  silent : ∀ first rest, uses = first ++ .unsubscribe id :: rest →
    ((o.after first).unsubscribe id).takenThrough id rest ++ (o.after uses).waiting id <+:
      ((o.after first).unsubscribe id).waiting id
  /-- and all of that is, or waits, as long as the inbox is kept. -/
  kept : ∀ first rest, uses = first ++ .unsubscribe id :: rest → (o.after uses).holds id = true →
    ((o.after first).unsubscribe id).takenThrough id rest ++ (o.after uses).waiting id =
      ((o.after first).unsubscribe id).waiting id
  /-- Those who are listed as functional are the silos that are functional, -/
  functional : ∀ x, (o.after uses).isFunctional x = true ↔
    ∃ m ∈ (o.after uses).functionalSilos, m.id = x.id
  /-- once each. -/
  once : ((o.after uses).functionalSilos.map Silo.id).Nodup

/-- Whatever has been done with an oracle before somebody subscribes, and whatever is done with it
afterwards, the subscription is a faithful log of the changes since then. -/
theorem subscription_faithful (o : Oracle) (uses : List Oracle.Use) :
    FaithfulLog o.subscribe.2 o.subscribe.1 uses := by
  have hid : o.subscribe.1 < o.subscribe.2.nextId := Nat.lt_succ_self o.nextId
  have hopened : o.subscribe.2.Follows o.subscribe.1 := ⟨_, o.find?_subscribe, rfl, rfl⟩
  have hempty : o.subscribe.2.waiting o.subscribe.1 = [] := Oracle.waiting_eq o.find?_subscribe
  generalize o.subscribe.1 = id at *
  generalize o.subscribe.2 = o at *
  have hlog (h : (o.after uses).Follows id) :
      o.takenThrough id uses ++ (o.after uses).waiting id = o.newsThrough uses := by
    rw [Oracle.log_after hid h, hempty, List.nil_append]
  have hreplayed (h : (o.after uses).Follows id) :
      Oracle.replay o.recorded (o.takenThrough id uses ++ (o.after uses).waiting id) =
        (o.after uses).recorded := by
    rw [hlog h, Oracle.recorded_after]
  have hended (first rest : List Oracle.Use) (huses : uses = first ++ .unsubscribe id :: rest) :
      o.after uses = ((o.after first).unsubscribe id).after rest ∧
        id < ((o.after first).unsubscribe id).nextId ∧ ((o.after first).unsubscribe id).Ended id := by
    have hfirst : id < (o.after first).nextId := Nat.lt_of_lt_of_le hid (o.nextId_after first)
    exact ⟨huses ▸ o.after_append first _, Oracle.lt_nextId_use hfirst (.unsubscribe id),
      Oracle.ended_unsubscribe hfirst⟩
  refine ⟨?_, hlog, o.newsThrough_eq_changes uses, hreplayed, fun h x => ?_,
    fun first rest huses => ?_, fun first rest huses hholds => ?_,
    fun _ => Oracle.isFunctional_iff, Oracle.nodup_functionalSilos _⟩
  · rw [Oracle.follows_after_iff hid]
    exact and_iff_right hopened
  · rw [hreplayed h, Oracle.status_eq_recorded]
  · obtain ⟨hafter, hid', hend⟩ := hended first rest huses
    rw [hafter]
    exact (Oracle.ended_after hid' hend rest).1
  · obtain ⟨hafter, hid', hend⟩ := hended first rest huses
    rw [hafter] at hholds ⊢
    exact ((Oracle.ended_after hid' hend rest).2 hholds).2

/-- A silo is first reported with no status, then twice as active; a second subscriber comes and gives
its inbox up, and learns nothing of the other silo. -/
def busyUses : List Oracle.Use :=
  [.report ⟨⟨.v4 1 1, 1⟩, 10⟩ .none, .subscribe, .report ⟨⟨.v4 1 1, 1⟩, 10⟩ .active,
    .report ⟨⟨.v4 1 1, 1⟩, 10⟩ .active, .take 1, .giveUp 2, .report ⟨⟨.v4 1 2, 1⟩, 20⟩ .joining]

theorem subscription_faithful_busy :
    ((default : Oracle).subscribe.2.after busyUses).Follows 1 ∧
      (default : Oracle).subscribe.2.takenThrough 1 busyUses = [⟨⟨⟨.v4 1 1, 1⟩, 10⟩, .none⟩] ∧
      [⟨⟨⟨.v4 1 1, 1⟩, 10⟩, .none⟩] ++ ((default : Oracle).subscribe.2.after busyUses).waiting 1 =
        [⟨⟨⟨.v4 1 1, 1⟩, 10⟩, .none⟩, ⟨⟨⟨.v4 1 1, 1⟩, 10⟩, .active⟩,
          ⟨⟨⟨.v4 1 2, 1⟩, 20⟩, .joining⟩] := by
  have hfaithful := subscription_faithful default busyUses
  have hfollowed := hfaithful.followed.mpr (by decide)
  have htaken : (default : Oracle).subscribe.2.takenThrough 1 busyUses =
      [⟨⟨⟨.v4 1 1, 1⟩, 10⟩, .none⟩] := by decide
  refine ⟨hfollowed, htaken, ?_⟩
  rw [← htaken]
  exact (hfaithful.log hfollowed).trans (by decide)

end GrainDirectory

import MessageBus.Proofs.Balance

/-!
# Taking, visiting and giving up a place

`park`, `revisit` and `abandon` act on one line of one channel. Each has one equation for every way
in which it can find the channel: gone, or with the ticket still in the line, or with the ticket
taken out. In a balanced registry none of them commits a fault, since a new ticket is in no line.
-/

namespace MessageBus

namespace Channel

variable {ω : Type} {c : Channel ω} {side : Side} {t : Ticket} {l : WaitLine ω}

/-- The channel after a caller went to the end of one of its lines. -/
def join (c : Channel ω) (t : Ticket) (k : ω) : Side → Channel ω
  | .senders => { c with senders := ⟨c.senders.waiters ++ [⟨t, k⟩]⟩ }
  | .receivers =>
    ({ c with receivers := ⟨c.receivers.waiters ++ [⟨t, k⟩]⟩ } : Channel ω).receiverParked.1

/-- Whom a channel calls when a caller goes to the end of one of its lines. -/
def joinCalls (c : Channel ω) (t : Ticket) (k : ω) : Side → List ω
  | .senders => []
  | .receivers =>
    ({ c with receivers := ⟨c.receivers.waiters ++ [⟨t, k⟩]⟩ } : Channel ω).receiverParked.2

theorem becomes_setLine (smaller : l.tickets.Sublist (c.tickets side)) :
    c.Becomes (c.setLine side l) c.queue.size
      (if side = .senders then l.size else c.senders.size)
      (if side = .receivers then l.size else c.receivers.size) := by
  refine ⟨⟨c.id_setLine side l, fun s => ?_⟩, ?_, ?_, ?_, ?_⟩
  · cases side <;> cases s
    · exact smaller
    · exact List.Sublist.refl _
    · exact List.Sublist.refl _
    · exact smaller
  all_goals cases side <;> rfl

theorem tickets_join_senders (c : Channel ω) (t : Ticket) (k : ω) :
    (c.join t k .senders).tickets .senders = c.tickets .senders ++ [t] ∧
      (c.join t k .senders).tickets .receivers = c.tickets .receivers := by
  simp [join, tickets, line, WaitLine.tickets]

theorem tickets_join_receivers (c : Channel ω) (t : Ticket) (k : ω) :
    ((c.join t k .receivers).tickets .senders).Sublist (c.tickets .senders) ∧
      (c.join t k .receivers).tickets .receivers = c.tickets .receivers ++ [t] := by
  refine ⟨(becomes_receiverParked _).shrinks.2 .senders, ?_⟩
  rw [join, receiverParked]
  split <;> simp [tickets, line, WaitLine.tickets]

theorem id_join (c : Channel ω) (t : Ticket) (k : ω) (side : Side) :
    (c.join t k side).id = c.id := by
  cases side with
  | senders => rfl
  | receivers => exact (becomes_receiverParked _).shrinks.1

/-- Whoever goes to a line is added to it, and takes nobody's place. -/
theorem tickets_join (c : Channel ω) (t : Ticket) (k : ω) (side s : Side) :
    ((c.join t k side).tickets s).Sublist (c.tickets s) ∨
      s = side ∧ (c.join t k side).tickets s = c.tickets s ++ [t] := by
  cases side <;> cases s
  · exact .inr ⟨rfl, (c.tickets_join_senders t k).1⟩
  · exact .inl ((c.tickets_join_senders t k).2 ▸ List.Sublist.refl _)
  · exact .inl (c.tickets_join_receivers t k).1
  · exact .inr ⟨rfl, (c.tickets_join_receivers t k).2⟩

end Channel

namespace Registry

variable {ω : Type} {r : Registry ω} {held : List Stay} {a : Address} {p : Place} {c : Channel ω}
  {side : Side}

/-- The registry after another ticket was given out. -/
def issue (r : Registry ω) : Registry ω := { r with nextTicket := r.nextTicket + 1 }

theorem Balanced.issue (bal : r.Balanced held) : r.issue.Balanced held where
  issued s member := Nat.lt_succ_of_lt (bal.issued s member)
  distinct := bal.distinct
  owned := bal.owned
  single := bal.single
  fitting := bal.fitting

theorem park_of_gone (gone : r.find? a = none) (side : Side) (k : ω) :
    r.park a side k = .ok { answer := none, state := r.issue } := by
  have gone' : r.issue.find? a = none := gone
  rw [issue] at gone'
  simp [park, gone', issue]

theorem park_of_find? (bal : r.Balanced held) (found : r.find? a = some c) (side : Side) (k : ω) :
    ∃ o, r.park a side k = .ok o ∧ o.answer = some ⟨a, side, ⟨r.nextTicket⟩⟩ ∧
      o.state = r.issue.put a.handle (c.join ⟨r.nextTicket⟩ k side) := by
  have found' : r.issue.find? a = some c := found
  have pushed := WaitLine.push_of_not_mem k (bal.fresh found side)
  rw [issue] at found'
  simp only [park, found', pushed, Except.map]
  cases side
  · exact ⟨_, rfl, rfl, rfl⟩
  · exact ⟨_, rfl, rfl, rfl⟩

/-- Whoever takes a place holds one stay more. -/
theorem Balanced.park (bal : r.Balanced held) (found : r.find? a = some c) (k : ω)
    {request : Option Request}
    (fits : ∀ q, request = some q → q.Fits ⟨a, side, ⟨r.nextTicket⟩⟩) :
    (r.issue.put a.handle (c.join ⟨r.nextTicket⟩ k side)).Balanced
      (⟨request, ⟨a, side, ⟨r.nextTicket⟩⟩⟩ :: held) := by
  refine bal.take fits rfl rfl fun a' d after => ?_
  rcases find?_put_cases (r := r.issue) found (c.id_join _ k side) after with
    ⟨rfl, rfl⟩ | ⟨-, before⟩
  · refine ⟨c, found, fun s => ?_⟩
    rcases c.tickets_join ⟨r.nextTicket⟩ k side s with smaller | ⟨rfl, longer⟩
    · exact .inl smaller
    · exact .inr ⟨Place.isAt_iff.2 ⟨rfl, rfl⟩, longer⟩
  · exact ⟨d, before, fun s => .inl (List.Sublist.refl _)⟩

/-! ### Visiting -/

theorem revisit_eq_of_gone (gone : r.find? p.address = none) (k : ω) : r.revisit p k =
    { answer := .gone
      state := r
      notes := [.resumedOnClosed p.address.handle p.ticket] } := by
  rw [revisit, gone]

theorem revisit_of_gone (gone : r.find? p.address = none) (k : ω) :
    (r.revisit p k).answer = .gone ∧ (r.revisit p k).state = r := by
  rw [revisit_eq_of_gone gone k]
  exact ⟨rfl, rfl⟩

theorem revisit_of_called (called : r.hasCalled p = true) (k : ω) :
    (r.revisit p k).answer = .called ∧ (r.revisit p k).state = r := by
  obtain ⟨c, found, out⟩ := hasCalled_iff.1 called
  have none := (WaitLine.refresh?_eq_none_iff (c.line p.side) p.ticket k).2 out
  simp [revisit, found, none]

theorem exists_of_isQueued (queued : r.isQueued p = true) :
    ∃ c, r.find? p.address = some c ∧ p.ticket ∈ c.tickets p.side := by
  cases found : r.find? p.address with
  | none =>
    rw [isQueued_eq_false_of_gone found] at queued
    cases queued
  | some c => exact ⟨c, rfl, (isQueued_of_find? found).1 queued⟩

/-- A look at a place that is still queued changes no line. -/
theorem revisit_of_queued (queued : r.isQueued p = true) (k : ω) :
    ∃ c l, r.find? p.address = some c ∧ l.tickets = c.tickets p.side ∧
      (r.revisit p k).answer = .queued ∧
      (r.revisit p k).state = r.put p.address.handle (c.setLine p.side l) := by
  obtain ⟨c, found, inside⟩ := exists_of_isQueued queued
  cases fresh : (c.line p.side).refresh? p.ticket k with
  | none => exact absurd inside ((WaitLine.refresh?_eq_none_iff _ _ _).1 fresh)
  | some l =>
    refine ⟨c, l, found, WaitLine.tickets_of_refresh? fresh, ?_, ?_⟩
    · simp [revisit, found, fresh]
    · simp [revisit, found, fresh]

/-- A place is queued, or was called, or its channel is gone. -/
theorem standing_cases (r : Registry ω) (p : Place) :
    r.isQueued p = true ∨ r.hasCalled p = true ∨ r.find? p.address = none := by
  cases found : r.find? p.address with
  | none => exact .inr (.inr rfl)
  | some c =>
    cases queued : r.isQueued p
    · exact .inr (.inl (by rw [hasCalled, found, queued]; rfl))
    · exact .inl rfl

/-! ### Giving up -/

theorem abandon_of_gone (gone : r.find? p.address = none) : (r.abandon p).state = r := by
  simp [abandon, gone]

theorem abandon_of_called (called : r.hasCalled p = true) :
    ∃ c, r.find? p.address = some c ∧
      (r.abandon p).state = r.put p.address.handle (c.wakeFirst p.side).1 := by
  obtain ⟨c, found, out⟩ := hasCalled_iff.1 called
  have none := WaitLine.remove?_of_not_mem out
  exact ⟨c, found, by simp [abandon, found, none]⟩

theorem abandon_of_queued (queued : r.isQueued p = true) :
    ∃ c l, r.find? p.address = some c ∧ p.ticket ∈ c.tickets p.side ∧
      l.tickets = (c.tickets p.side).erase p.ticket ∧
      (r.abandon p).state = r.put p.address.handle (c.setLine p.side l) := by
  obtain ⟨c, found, inside⟩ := exists_of_isQueued queued
  obtain ⟨l, removed, left⟩ := WaitLine.remove?_of_mem inside
  exact ⟨c, l, found, inside, left, by simp [abandon, found, removed]⟩

end Registry

end MessageBus

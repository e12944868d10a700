import MessageBus.Proofs.Identities
import MessageBus.Proofs.LineOrder
import MessageBus.Proofs.Trails
import MessageBus.Proofs.WaitEntries.Errands
import Mathlib.Data.List.Induction

/-!
# Who waits longest is called first

Whatever an errand does, each line of the bus changes in one of four ways (`Errand.Turns`): its
first waiters are called, in their order, or somebody new goes to its end under the next ticket, or
one waiter is left with a new waker, or the one whose place is given up is taken out. So the tickets
of a line ascend, below the one that is given out next (`Registry.InTurn`).

It follows that over a whole run the tickets that were called from a line, and those that stand in
it still, ascend in the order in which they were called and stand. This holds of runs of any kind,
also where wakers are called while an operation is still under way.
-/

namespace MessageBus

variable {ω : Type}

namespace Registry

variable {r r' : Registry ω} {a b : Address} {c c' d : Channel ω} {side s : Side} {t : Ticket}
  {w : Waiter ω} {woken : List ω}

/-- Those who stand in a line, the first in front. Nobody stands at a channel that is gone. -/
def queue (r : Registry ω) (a : Address) (side : Side) : List (Waiter ω) :=
  ((r.find? a).map fun c => (c.line side).waiters).getD []

theorem queue_of_find? (found : r.find? a = some c) (side : Side) :
    r.queue a side = (c.line side).waiters := by
  rw [queue, found]
  rfl

theorem queue_of_gone (gone : r.find? a = none) (side : Side) : r.queue a side = [] := by
  rw [queue, gone]
  rfl

theorem mem_queue_iff : w ∈ r.queue a side ↔ (⟨a, side, w.ticket⟩, w.waker) ∈ r.waiting := by
  rw [mem_waiting_iff, queue]
  cases found : r.find? a with
  | none => simp
  | some c => simp

theorem isQueued_iff_mem_queue :
    r.isQueued ⟨a, side, t⟩ = true ↔ t ∈ (r.queue a side).map (·.ticket) := by
  rw [isQueued, queue]
  cases r.find? a with
  | none => simp
  | some c => exact (c.line side).contains_iff_mem_tickets t

theorem queue_put (there : r.find? b = some c) (same : d.id = c.id) (a : Address) (side : Side) :
    (r.put b.handle d).queue a side = if a = b then (d.line side).waiters else r.queue a side := by
  rw [queue, find?_put there same]
  split
  · rfl
  · rfl

/-- Whether some left the front of a line and were called in this order, among others, and nobody
else left or joined it. -/
def CallsFrom (r r' : Registry ω) (a : Address) (side : Side) (woken : List ω) : Prop :=
  ∃ popped, r.queue a side = popped ++ r'.queue a side ∧ (popped.map (·.waker)).Sublist woken

theorem callsFrom_of_same (same : r'.queue a side = r.queue a side) :
    r.CallsFrom r' a side woken := ⟨[], same.symm, List.nil_sublist _⟩

theorem callsFrom_of_find? (found : r.find? a = some c) (found' : r'.find? a = some d)
    (calls : c.CallsFrom d side woken) : r.CallsFrom r' a side woken := by
  rwa [CallsFrom, queue_of_find? found, queue_of_find? found']

/-- Where nobody stands, popping entries changes nothing. -/
theorem callsFrom_of_gone (gone : r.find? a = none) (shifts : r.Shifts r' [] [] woken) :
    r.CallsFrom r' a side woken := by
  have empty : r'.queue a side = [] := by
    refine List.eq_nil_iff_forall_not_mem.2 fun w there => ?_
    obtain ⟨popped, stay, before, after, -⟩ := shifts
    have stays := after.mem_iff.1 (mem_queue_iff.1 there)
    have old : (⟨a, side, w.ticket⟩, w.waker) ∈ r.waiting :=
      before.mem_iff.2 (List.mem_append_right _ stays)
    obtain ⟨c, found, -⟩ := mem_waiting_iff.1 old
    cases gone.symm.trans found
  exact callsFrom_of_same (by rw [empty, queue_of_gone gone])

/-- If a place that was called is given up, the wakeup goes to the first in the line. -/
theorem callsFrom_abandon {p : Place} (called : r.hasCalled p = true) (a : Address) (side : Side) :
    r.CallsFrom (r.abandon p).state a side (r.abandon p).woken := by
  obtain ⟨c, found, out⟩ := hasCalled_iff.1 called
  have none := WaitLine.remove?_of_not_mem out
  simp only [abandon, found, none]
  rw [CallsFrom, queue_put found (c.id_wakeFirst p.side)]
  split
  · rename_i here
    rw [here, queue_of_find? found]
    exact (c.popsInOrder_wakeFirst p.side).line side
  · exact ⟨[], rfl, List.nil_sublist _⟩

/-- Whoever parks goes to the end of its line; any other line is left alone or served from the
front. -/
theorem queue_of_park {k : ω} {o : Outcome (Registry ω) ω (Option Place)}
    (found : r.find? b = some c) (ran : r.park b s k = .ok o) (a : Address) (side : Side) :
    a = b ∧ side = s ∧ o.state.queue a side = r.queue a side ++ [⟨⟨r.nextTicket⟩, k⟩] ∨
      r.CallsFrom o.state a side o.woken := by
  obtain ⟨d, state, id, -, joined, receivers, senders⟩ := exists_joined found ran
  have issued : r.issue.find? b = some c := found
  have put := queue_put issued id
  by_cases here : a = b
  · subst here
    have before := queue_of_find? found side
    have after : o.state.queue a side = (d.line side).waiters := by
      rw [state, put, if_pos rfl]
    by_cases own : side = s
    · subst own
      exact .inl ⟨rfl, rfl, by rw [after, before, joined]⟩
    · refine .inr ?_
      rw [CallsFrom, before, after]
      cases side with
      | senders =>
        cases s with
        | senders => exact absurd rfl own
        | receivers => exact senders rfl
      | receivers =>
        cases s with
        | senders => exact Channel.callsFrom_of_same (receivers rfl)
        | receivers => exact absurd rfl own
  · refine .inr (callsFrom_of_same ?_)
    rw [state, put, if_neg here]
    rfl

/-- The line in which a waiter stands is changed, and no other. -/
theorem queue_setLine {p : Place} {l : WaitLine ω} (there : r.find? p.address = some c)
    (a : Address) (side : Side) :
    a = p.address ∧ side = p.side ∧ r.queue a side = (c.line p.side).waiters ∧
        (r.put p.address.handle (c.setLine p.side l)).queue a side = l.waiters ∨
      (a, side) ≠ (p.address, p.side) ∧
        (r.put p.address.handle (c.setLine p.side l)).queue a side = r.queue a side := by
  rw [queue_put there (c.id_setLine _ _)]
  by_cases here : a = p.address
  · subst here
    rw [if_pos rfl, queue_of_find? there]
    by_cases own : side = p.side
    · subst own
      refine .inl ⟨rfl, rfl, rfl, ?_⟩
      cases p.side <;> rfl
    · refine .inr ⟨fun same => own (congrArg Prod.snd same), ?_⟩
      revert own
      cases side <;> cases p.side <;> first | exact fun _ => rfl | exact fun own => absurd rfl own
  · rw [if_neg here]
    exact .inr ⟨fun same => here (congrArg Prod.fst same), rfl⟩

end Registry

/-! ### What an errand does to one line -/

section

variable {r : Registry ω} {a : Address} {side : Side}

/-- An operation calls from the front of a line and changes nothing else there. If it ends the
channel it calls everybody. -/
theorem Operation.callsFrom {op : Operation} {o : Outcome (Registry ω) ω Reply}
    (ran : op.apply r = .ok o) : r.CallsFrom o.state a side o.woken := by
  cases found : r.find? a with
  | none => exact Registry.callsFrom_of_gone found (Operation.shifts_apply ran)
  | some c =>
    by_cases ends : op.EndsAt a.handle
    · have ends : op = .close a.handle ∨ op = .delete := by
        cases op <;> simp only [EndsAt] at ends
        · exact .inl (congrArg _ ends)
        · exact .inr rfl
      have gone := Operation.find?_of_ends ends ran
      refine ⟨(c.line side).waiters, ?_, ?_⟩
      · rw [Registry.queue_of_find? found, Registry.queue_of_gone gone, List.append_nil]
      · have called : ((c.line side).waiters.map (·.waker)).Sublist c.close := by
          cases side with
          | senders => exact List.sublist_append_right _ _
          | receivers => exact List.sublist_append_left _ _
        rcases ends with rfl | rfl
        · cases ran
          have slot := (Registry.find?_eq_some_iff.1 found).1
          rw [Outcome.woken_map, Registry.close, slot]
          exact called
        · cases ran
          refine called.trans ?_
          exact List.sublist_flatten_of_mem
            (List.mem_map_of_mem (Registry.mem_channels_of_find? found))
    · obtain ⟨d, found', served⟩ := Operation.exists_served found ran ends
      exact Registry.callsFrom_of_find? found found' (served.calls side)

/-- So does an attempt at a request. -/
theorem Request.callsFrom {q : Request} {o : Outcome (Registry ω) ω Attempt}
    (ran : q.attempt r = .ok o) : r.CallsFrom o.state a side o.woken := by
  cases found : r.find? a with
  | none => exact Registry.callsFrom_of_gone found (Request.shifts_attempt ran)
  | some c =>
    obtain ⟨d, found', served⟩ := Request.exists_served found ran
    exact Registry.callsFrom_of_find? found found' (served.calls side)

/-- Neither gives out a ticket. -/
theorem Operation.nextTicket_apply {op : Operation} {o : Outcome (Registry ω) ω Reply}
    (ran : op.apply r = .ok o) : o.state.nextTicket = r.nextTicket := by
  obtain ⟨p, ran', handles⟩ := op.apply_handles r
  cases ran.symm.trans ran'
  exact handles.1

theorem Request.nextTicket_attempt {q : Request} {o : Outcome (Registry ω) ω Attempt}
    (ran : q.attempt r = .ok o) : o.state.nextTicket = r.nextTicket := by
  obtain ⟨tried, ran', fares⟩ := q.attempt_fares r
  obtain rfl := Except.ok.inj (ran.symm.trans ran')
  generalize o.answer = answer at fares
  generalize o.state = r' at fares ⊢
  cases fares with
  | granted granted => exact granted.nextTicket
  | groundless _ => rfl
  | blocked _ => rfl

end

namespace Errand

variable {r : Registry ω} {e : Errand ω} {o : Outcome (Registry ω) ω Upshot} {a : Address}
  {side : Side}

/-- What an errand does to one line. -/
inductive Turns (e : Errand ω) (r : Registry ω) (o : Outcome (Registry ω) ω Upshot) (a : Address)
    (side : Side) : Prop where
  | calls (calls : r.CallsFrom o.state a side o.woken)
    (out : ∀ t, e.givesUp ⟨a, side, t⟩ = true → r.isQueued ⟨a, side, t⟩ = false)
  | joins {k : ω} (own : e.waker? = some k)
    (last : o.state.queue a side = r.queue a side ++ [⟨⟨r.nextTicket⟩, k⟩])
    (next : r.nextTicket < o.state.nextTicket)
  | renews {t : Ticket} {k k' : ω} {front back : List (Waiter ω)} (own : e.waker? = some k')
    (before : r.queue a side = front ++ ⟨t, k⟩ :: back)
    (after : o.state.queue a side = front ++ ⟨t, k'⟩ :: back)
  | leaves {t : Ticket} {k : ω} {front back : List (Waiter ω)}
    (gives : e.givesUp ⟨a, side, t⟩ = true) (before : r.queue a side = front ++ ⟨t, k⟩ :: back)
    (after : o.state.queue a side = front ++ back)

theorem Turns.of_waits {k : ω} (own : e.waker? = some k)
    (calls : r.CallsFrom o.state a side o.woken) : e.Turns r o a side := by
  refine .calls calls fun t gives => ?_
  cases e <;> simp [waker?, givesUp] at own gives

/-- A new waker is left in the line of a place. -/
theorem Turns.of_revisit {p : Place} {k : ω} (own : e.waker? = some k)
    (state : o.state = (r.revisit p k).state) : e.Turns r o a side := by
  rcases r.standing_cases p with queued | called | gone
  · obtain ⟨c, there, inside⟩ := Registry.exists_of_isQueued queued
    cases fresh : (c.line p.side).refresh? p.ticket k with
    | none => exact absurd inside ((WaitLine.refresh?_eq_none_iff _ _ _).1 fresh)
    | some l =>
      simp only [Registry.revisit, there, fresh] at state
      rcases Registry.queue_setLine there a side with ⟨-, -, before, after⟩ | ⟨-, same⟩
      · obtain ⟨k', front, back, was, is⟩ := WaitLine.waiters_of_refresh? fresh
        exact .renews own (before.trans was) (by rw [state, after, is])
      · exact .of_waits own (Registry.callsFrom_of_same (by rw [state, same]))
  · rw [(Registry.revisit_of_called called k).2] at state
    exact .of_waits own (Registry.callsFrom_of_same (by rw [state]))
  · rw [(Registry.revisit_of_gone gone k).2] at state
    exact .of_waits own (Registry.callsFrom_of_same (by rw [state]))

/-- Somebody new goes to the end of a line. -/
theorem Turns.of_park {b : Address} {s : Side} {k : ω}
    {p : Outcome (Registry ω) ω (Option Place)} (own : e.waker? = some k)
    (ran : r.park b s k = .ok p) (state : o.state = p.state) (woken : o.woken = p.woken) :
    e.Turns r o a side := by
  cases found : r.find? b with
  | none =>
    cases ran.symm.trans (Registry.park_of_gone found s k)
    exact .of_waits own (Registry.callsFrom_of_same (by rw [state]; rfl))
  | some c =>
    rcases Registry.queue_of_park found ran a side with ⟨-, -, last⟩ | calls
    · refine .joins own (by rw [state, last]) ?_
      rw [state, (Registry.joins_of_park found ran).state]
      exact Nat.lt_succ_self _
    · exact .of_waits own (by rwa [state, woken])

/-- A place is left, or its wakeup goes on, or nothing is left to give up. -/
theorem turns_abandon (p : Place) (a : Address) (side : Side) :
    (abandon p : Errand ω).Turns r ((r.abandon p).map fun _ => {}) a side := by
  have given {t : Ticket} (gives : (abandon p : Errand ω).givesUp ⟨a, side, t⟩ = true) :
      p = ⟨a, side, t⟩ := of_decide_eq_true gives
  rcases r.standing_cases p with queued | called | gone
  · obtain ⟨c, there, inside⟩ := Registry.exists_of_isQueued queued
    obtain ⟨l, removed, -⟩ := WaitLine.remove?_of_mem inside
    simp only [Outcome.map, Registry.abandon, there, removed]
    rcases Registry.queue_setLine there a side with ⟨here, own, before, after⟩ | ⟨other, same⟩
    · obtain ⟨k, front, back, was, is⟩ := WaitLine.waiters_of_remove? removed
      exact .leaves (decide_eq_true (by rw [here, own])) (before.trans was) (after.trans is)
    · exact .calls (Registry.callsFrom_of_same same) fun t gives =>
        absurd (by rw [given gives]) other
  · refine .calls (Registry.callsFrom_abandon called a side) fun t gives => ?_
    rw [← given gives]
    exact Registry.isQueued_eq_false_of_hasCalled called
  · refine .calls (Registry.callsFrom_of_same ?_) fun t gives => ?_
    · rw [Outcome.state_map, Registry.abandon_of_gone gone]
    · rw [← given gives]
      exact Registry.isQueued_eq_false_of_gone gone

theorem turns (ran : e.effect r = .ok o) (a : Address) (side : Side) : e.Turns r o a side := by
  cases e with
  | operate op =>
    obtain ⟨p, did, rfl⟩ := Outcome.of_map_eq_ok ran
    exact .calls (Operation.callsFrom did) fun _ gives => absurd gives Bool.false_ne_true
  | look q prior k =>
    obtain ⟨⟨turn, r', woken, notes, afterwards⟩, did, rfl⟩ := Outcome.of_map_eq_ok ran
    have ends := Request.ends_of_look did
    cases ends with
    | tried _ tries _ => exact .of_waits rfl (Request.callsFrom tries)
    | parked _ _ _ parks => exact .of_park rfl parks rfl rfl
    | waiting _ => exact .of_revisit rfl rfl
    | gone _ => exact .of_waits rfl (Registry.callsFrom_of_same rfl)
  | park b s k =>
    obtain ⟨p, did, rfl⟩ := Outcome.of_map_eq_ok ran
    exact .of_park rfl did rfl rfl
  | revisit p k =>
    cases ran
    exact .of_revisit rfl rfl
  | abandon p =>
    cases ran
    exact turns_abandon p a side
  | glance =>
    cases ran
    exact .calls (Registry.callsFrom_of_same rfl) fun _ gives => absurd gives Bool.false_ne_true

end Errand

/-! ### Tickets in turn -/

namespace Registry

variable {r r' : Registry ω} {a : Address} {side : Side} {gives : Place → Bool}

/-- The tickets of every line ascend, and all of them were given out. -/
structure InTurn (r : Registry ω) : Prop where
  ascending : ∀ a side, ((r.queue a side).map (·.ticket.number)).Pairwise (· < ·)
  below : ∀ a side, ∀ w ∈ r.queue a side, w.ticket.number < r.nextTicket

theorem inTurn_empty : (empty : Registry ω).InTurn := ⟨fun _ _ => .nil, nofun⟩

/-- Those who left a line without giving up their place: they were called. -/
def callees (r r' : Registry ω) (gives : Place → Bool) (a : Address) (side : Side) :
    List (Waiter ω) :=
  (r.queue a side).filter fun w =>
    !r'.isQueued ⟨a, side, w.ticket⟩ && !gives ⟨a, side, w.ticket⟩

theorem callees_eq_nil (stay : ∀ w ∈ r.queue a side, w.ticket ∈ (r'.queue a side).map (·.ticket) ∨
    gives ⟨a, side, w.ticket⟩ = true) : r.callees r' gives a side = [] := by
  refine List.filter_eq_nil_iff.2 fun w there => ?_
  rcases stay w there with stays | given
  · simp [isQueued_iff_mem_queue.2 stays]
  · simp [given]

/-- If a line only loses its front, those in front were called. -/
theorem callees_of_popped {popped : List (Waiter ω)}
    (left : r.queue a side = popped ++ r'.queue a side)
    (ascending : ((r.queue a side).map (·.ticket.number)).Pairwise (· < ·))
    (out : ∀ t, gives ⟨a, side, t⟩ = true → r.isQueued ⟨a, side, t⟩ = false) :
    r.callees r' gives a side = popped := by
  rw [left, List.map_append] at ascending
  have apart := (List.pairwise_append.1 ascending).2.2
  have front : popped.filter (fun w =>
      !r'.isQueued ⟨a, side, w.ticket⟩ && !gives ⟨a, side, w.ticket⟩) = popped := by
    refine List.filter_eq_self.2 fun w there => ?_
    have gone : r'.isQueued ⟨a, side, w.ticket⟩ = false := by
      rw [← Bool.not_eq_true, isQueued_iff_mem_queue]
      intro later
      obtain ⟨w', there', same⟩ := List.mem_map.1 later
      exact absurd (congrArg Ticket.number same).symm
        (Nat.ne_of_lt (apart _ (List.mem_map_of_mem there) _ (List.mem_map_of_mem there')))
    have kept : gives ⟨a, side, w.ticket⟩ = false := by
      rw [← Bool.not_eq_true]
      intro given
      have queued : r.isQueued ⟨a, side, w.ticket⟩ = true := by
        rw [isQueued_iff_mem_queue, left]
        exact List.mem_map_of_mem (List.mem_append_left _ there)
      cases (out _ given).symm.trans queued
    simp [gone, kept]
  have back : (r'.queue a side).filter (fun w =>
      !r'.isQueued ⟨a, side, w.ticket⟩ && !gives ⟨a, side, w.ticket⟩) = [] := by
    refine List.filter_eq_nil_iff.2 fun w there => ?_
    simp [isQueued_iff_mem_queue.2 (List.mem_map_of_mem there)]
  rw [callees, left, List.filter_append, front, back, List.append_nil]

end Registry

namespace Errand

variable {r : Registry ω} {e : Errand ω} {o : Outcome (Registry ω) ω Upshot} {a : Address}
  {side : Side} {past : List (Waiter ω)} {w : Waiter ω}

/-- No ticket is taken back. -/
theorem nextTicket_le (ran : e.effect r = .ok o) : r.nextTicket ≤ o.state.nextTicket := by
  have parks {b : Address} {s : Side} {k : ω} {p : Outcome (Registry ω) ω (Option Place)}
      (ran : r.park b s k = .ok p) : r.nextTicket ≤ p.state.nextTicket := by
    cases found : r.find? b with
    | none =>
      cases ran.symm.trans (Registry.park_of_gone found s k)
      exact Nat.le_succ _
    | some c =>
      rw [(Registry.joins_of_park found ran).state]
      exact Nat.le_succ _
  cases e with
  | operate op =>
    obtain ⟨p, did, rfl⟩ := Outcome.of_map_eq_ok ran
    exact Nat.le_of_eq (Operation.nextTicket_apply did).symm
  | look q prior k =>
    obtain ⟨⟨turn, r', woken, notes, afterwards⟩, did, rfl⟩ := Outcome.of_map_eq_ok ran
    have ends := Request.ends_of_look did
    cases ends with
    | tried _ tries _ => exact Nat.le_of_eq (Request.nextTicket_attempt tries).symm
    | parked _ _ _ parked => exact parks parked
    | @waiting p _ => exact Nat.le_of_eq (r.nextTicket_revisit p k).symm
    | gone _ => exact Nat.le_refl _
  | park b s k =>
    obtain ⟨p, did, rfl⟩ := Outcome.of_map_eq_ok ran
    exact parks did
  | revisit p k =>
    cases ran
    exact Nat.le_of_eq (r.nextTicket_revisit p k).symm
  | abandon p =>
    cases ran
    exact Nat.le_of_eq (r.nextTicket_abandon p).symm
  | glance =>
    cases ran
    exact Nat.le_refl _

/-- What becomes of a line whose tickets ascend: those whom the errand calls stood at its front, or
it calls nobody and some tickets are gone, or it calls nobody and there is a new one at the end. -/
theorem Turns.split (turns : e.Turns r o a side)
    (ascending : ((r.queue a side).map (·.ticket.number)).Pairwise (· < ·)) :
    (r.queue a side = r.callees o.state e.givesUp a side ++ o.state.queue a side ∧
        ((r.callees o.state e.givesUp a side).map (·.waker)).Sublist o.woken) ∨
      r.callees o.state e.givesUp a side = [] ∧
        (((o.state.queue a side).map (·.ticket)).Sublist ((r.queue a side).map (·.ticket)) ∨
          r.nextTicket < o.state.nextTicket ∧
            ∃ k, o.state.queue a side = r.queue a side ++ [⟨⟨r.nextTicket⟩, k⟩]) := by
  cases turns with
  | calls calls out =>
    obtain ⟨popped, left, called⟩ := calls
    rw [Registry.callees_of_popped left ascending out]
    exact .inl ⟨left, called⟩
  | @joins k _ last next =>
    refine .inr ⟨Registry.callees_eq_nil fun w there => .inl ?_, .inr ⟨next, k, last⟩⟩
    rw [last]
    exact List.mem_map_of_mem (List.mem_append_left _ there)
  | renews _ before after =>
    have tickets : (o.state.queue a side).map (·.ticket) = (r.queue a side).map (·.ticket) := by
      rw [before, after, List.map_append, List.map_append]
      rfl
    refine .inr ⟨Registry.callees_eq_nil fun w there => .inl ?_, .inl ?_⟩
    · rw [tickets]
      exact List.mem_map_of_mem there
    · rw [tickets]
  | leaves gives before after =>
    refine .inr ⟨Registry.callees_eq_nil fun w there => ?_, .inl ?_⟩
    · rw [before, List.mem_append, List.mem_cons] at there
      rw [after]
      rcases there with front | rfl | back
      · exact .inl (List.mem_map_of_mem (List.mem_append_left _ front))
      · exact .inr gives
      · exact .inl (List.mem_map_of_mem (List.mem_append_right _ back))
    · rw [before, after]
      exact ((List.sublist_cons_self _ _).append_left _).map _

/-- If the tickets that were called from a line and those that stand there ascend, they do so after
an errand, with those that it called. -/
theorem Turns.ascends (turns : e.Turns r o a side) (issues : r.nextTicket ≤ o.state.nextTicket)
    (ascending : ((past ++ r.queue a side).map (·.ticket.number)).Pairwise (· < ·))
    (below : ∀ w ∈ past ++ r.queue a side, w.ticket.number < r.nextTicket) :
    ((past ++ r.callees o.state e.givesUp a side ++ o.state.queue a side).map
        (·.ticket.number)).Pairwise (· < ·) ∧
      ∀ w ∈ past ++ r.callees o.state e.givesUp a side ++ o.state.queue a side,
        w.ticket.number < o.state.nextTicket := by
  have line := ascending
  rw [List.map_append] at line
  have below' (n : Nat) (there : n ∈ (past ++ r.queue a side).map (·.ticket.number)) :
      n < r.nextTicket := by
    obtain ⟨w, inside, rfl⟩ := List.mem_map.1 there
    exact below w inside
  rcases turns.split (List.pairwise_append.1 line).2.1 with
    ⟨left, -⟩ | ⟨none, fewer | ⟨next, k, last⟩⟩
  · rw [List.append_assoc, ← left]
    exact ⟨ascending, fun w there => Nat.lt_of_lt_of_le (below w there) issues⟩
  · rw [none, List.append_nil]
    have fewer : ((past ++ o.state.queue a side).map (·.ticket.number)).Sublist
        ((past ++ r.queue a side).map (·.ticket.number)) := by
      have numbers := fewer.map Ticket.number
      rw [List.map_map, List.map_map] at numbers
      rw [List.map_append, List.map_append]
      exact numbers.append_left _
    refine ⟨ascending.sublist fewer, fun w there => Nat.lt_of_lt_of_le ?_ issues⟩
    exact below' _ (fewer.subset (List.mem_map_of_mem there))
  · rw [none, List.append_nil, last, ← List.append_assoc]
    refine ⟨?_, fun w there => ?_⟩
    · rw [List.map_append, List.pairwise_append]
      refine ⟨ascending, List.pairwise_singleton _ _, fun n there n' new => ?_⟩
      rw [List.mem_singleton.1 new]
      exact below' n there
    · rcases List.mem_append.1 there with there | there
      · exact Nat.lt_of_lt_of_le (below w there) issues
      · rw [List.mem_singleton.1 there]
        exact next

/-- How an errand treats those who stand in the lines. -/
structure KeepsTurns (e : Errand ω) (r : Registry ω) (o : Outcome (Registry ω) ω Upshot) :
    Prop where
  /-- Whom it calls from a line stood at its front. -/
  oldest : ∀ a side, r.callees o.state e.givesUp a side <+: r.queue a side
  /-- They are called in the order in which they stood there. -/
  order : ∀ a side, ((r.callees o.state e.givesUp a side).map (·.waker)).Sublist o.woken
  /-- It calls those who left a line without giving up their place, and nobody else. -/
  everyone : (((r.leaving o.state).filter (!e.givesUp ·.1)).map (·.2)).Perm o.woken
  /-- Who is new in a line stands behind all others, under a ticket that is above all on the bus. -/
  behind : ∀ a side, ∀ w ∈ o.state.queue a side, r.isQueued ⟨a, side, w.ticket⟩ = false →
    o.state.queue a side = r.queue a side ++ [w] ∧
      ∀ a' side', ∀ w' ∈ r.queue a' side', w'.ticket.number < w.ticket.number

theorem keepsTurns (inTurn : r.InTurn) (ran : e.effect r = .ok o) : e.KeepsTurns r o where
  oldest a side := by
    rcases (turns ran a side).split (inTurn.ascending a side) with ⟨left, -⟩ | ⟨none, -⟩
    · exact ⟨_, left.symm⟩
    · rw [none]
      exact List.nil_prefix
  order a side := by
    rcases (turns ran a side).split (inTurn.ascending a side) with ⟨-, called⟩ | ⟨none, -⟩
    · exact called
    · rw [none]
      exact List.nil_sublist _
  everyone := by
    refine wakes_leaving_of_nodup (Registry.nodup_waiting fun a c side found => ?_) ran
    have ascending := inTurn.ascending a side
    rw [Registry.queue_of_find? found] at ascending
    refine .of_map Ticket.number ?_
    rw [Channel.tickets, WaitLine.tickets, List.map_map]
    exact ascending.imp Nat.ne_of_lt
  behind a side w there new := by
    have old (inside : w.ticket ∈ (r.queue a side).map (·.ticket)) : False := by
      cases new.symm.trans (Registry.isQueued_iff_mem_queue.2 inside)
    rcases (turns ran a side).split (inTurn.ascending a side) with
      ⟨left, -⟩ | ⟨-, fewer | ⟨-, k, last⟩⟩
    · refine (old ?_).elim
      rw [left]
      exact List.mem_map_of_mem (List.mem_append_right _ there)
    · exact (old (fewer.subset (List.mem_map_of_mem there))).elim
    · rw [last] at there
      rcases List.mem_append.1 there with there | there
      · exact (old (List.mem_map_of_mem there)).elim
      · rw [List.mem_singleton.1 there]
        exact ⟨last, inTurn.below⟩

end Errand

/-! ### Whole runs -/

/-- Who is called from a line at a moment of a run. -/
def Moment.callees (b : Nat) (a : Address) (side : Side) (m : Moment) : List (Waiter Waker) :=
  (m.now.registry b).callees ((m.now.follow m.asked).registry b)
    (fun p => m.errand?.any fun (b', e) => b' = b && e.givesUp p) a side

namespace Executor

variable {x : Executor} {b : Nat} {a : Address} {side : Side} {past : List (Waiter Waker)}

/-- What a move does to the tickets of a line, its errand does. -/
theorem ascends_follow (x : Executor) (move : Option Step)
    (ascending : ((past ++ (x.registry b).queue a side).map (·.ticket.number)).Pairwise (· < ·))
    (below : ∀ w ∈ past ++ (x.registry b).queue a side,
      w.ticket.number < (x.registry b).nextTicket) :
    ((past ++ Moment.callees b a side ⟨x, move⟩ ++ ((x.follow move).registry b).queue a side).map
        (·.ticket.number)).Pairwise (· < ·) ∧
      ∀ w ∈ past ++ Moment.callees b a side ⟨x, move⟩ ++ ((x.follow move).registry b).queue a side,
        w.ticket.number < ((x.follow move).registry b).nextTicket := by
  rw [Moment.callees, x.registry_follow move b]
  cases outcome : x.outcomeOn (Moment.errand? ⟨x, move⟩) b with
  | none =>
    have nobody : (x.registry b).callees (x.registry b)
        (fun p => (Moment.errand? ⟨x, move⟩).any fun (b', e) => b' = b && e.givesUp p) a side =
          [] :=
      Registry.callees_eq_nil fun w there => .inl (List.mem_map_of_mem there)
    simp only [Option.map_none, Option.getD_none, nobody, List.append_nil]
    exact ⟨ascending, below⟩
  | some o =>
    obtain ⟨⟨b', e⟩, errand, carried⟩ := Option.bind_eq_some_iff.1 outcome
    split at carried
    · rename_i here
      obtain rfl : b' = b := here
      have ran := effect_of_carried carried
      have own : (fun p => (Moment.errand? ⟨x, move⟩).any fun (b'', e) => b'' = b' && e.givesUp p) =
          e.givesUp := by
        rw [errand]
        simp
      simp only [Option.map_some, Option.getD_some, own]
      exact (e.turns ran a side).ascends (e.nextTicket_le ran) ascending below
    · cases carried

/-- The tickets that were called from a line and those that stand there still, ascend. -/
theorem ascends_followAll (inTurn : ∀ b, (x.registry b).InTurn) (moves : List (Option Step))
    (b : Nat) (a : Address) (side : Side) :
    (((x.trailOf moves).flatMap (·.callees b a side) ++
        ((x.followAll moves).registry b).queue a side).map (·.ticket.number)).Pairwise (· < ·) ∧
      ∀ w ∈ (x.trailOf moves).flatMap (·.callees b a side) ++
        ((x.followAll moves).registry b).queue a side,
        w.ticket.number < ((x.followAll moves).registry b).nextTicket := by
  induction moves using List.reverseRecOn with
  | nil => exact ⟨(inTurn b).ascending a side, (inTurn b).below a side⟩
  | append_singleton moves move ih =>
    rw [followAll_concat, trailOf_concat, List.flatMap_append, List.flatMap_singleton]
    exact ascends_follow _ move ih.1 ih.2

/-- In every run all tickets of a bus are in turn. -/
theorem Arises.inTurn (arises : x.Arises) (b : Nat) : (x.registry b).InTurn := by
  obtain ⟨inline, moves, rfl⟩ := arises_iff.1 arises
  have empty (b : Nat) : ((new inline).registry b).InTurn := by
    rcases b with _ | b
    · exact Registry.inTurn_empty
    · exact Registry.inTurn_empty
  refine ⟨fun a side => ?_, fun a side w there => ?_⟩
  · have ascending := (ascends_followAll empty moves b a side).1
    rw [List.map_append] at ascending
    exact (List.pairwise_append.1 ascending).2.1
  · exact (ascends_followAll empty moves b a side).2 w (List.mem_append_right _ there)

/-- Whoever waits longest in a line of a bus is called first. -/
structure CallsOldestFirst (x : Executor) : Prop where
  inTurn : ∀ b, (x.registry b).InTurn
  /-- Whatever is done next on a bus keeps the turns. -/
  errand : ∀ (b : Nat) (e : Errand Waker) (o : Outcome (Registry Waker) Waker Upshot),
    e.effect (x.registry b) = .ok o → e.KeepsTurns (x.registry b) o
  /-- However the run goes on, a bus is changed by such errands only. -/
  move : ∀ move b, (x.follow move).registry b =
    ((x.outcomeOn (Moment.errand? ⟨x, move⟩) b).map (·.state)).getD (x.registry b)
  /-- However it goes on, the tickets called from a line ascend, and those left stand above them. -/
  history : ∀ moves b a side, (((x.trailOf moves).flatMap (·.callees b a side) ++
    ((x.followAll moves).registry b).queue a side).map (·.ticket.number)).Pairwise (· < ·)

/-- In every run, of whatever kind, waiters are called oldest first. -/
theorem called_oldest_first (arises : x.Arises) : x.CallsOldestFirst where
  inTurn := arises.inTurn
  errand b e _ ran := e.keepsTurns (arises.inTurn b) ran
  move := x.registry_follow
  history moves b a side := (ascends_followAll arises.inTurn moves b a side).1

/-- Three senders wait on a full channel. -/
def threeWaitToSend : List Step :=
  [.act 0 (.operate (.openChannel 1)), .act 0 (.operate (.trySend 0 7)),
    .spawn [⟨0, .call (.send 0 1)⟩] false, .spawn [⟨0, .call (.send 0 2)⟩] false,
    .spawn [⟨0, .call (.send 0 3)⟩] false, .run none]

/-- The first one is called, but finds the channel full once more; the second one is dropped; then
another slot is freed. -/
def firstComesTooLate : List (Option Step) :=
  [.act 0 (.operate (.tryRecv 0)), .act 0 (.operate (.trySend 0 9)), .run none,
    .act 0 (.drop 1), .act 0 (.operate (.tryRecv 0))].flatMap fun s =>
      some s :: List.replicate 20 none

/-- The first and the third sender are called, and the first one stands in line again, as the
last. -/
theorem late_sender_goes_to_the_end :
    let x := ((new false).runScript threeWaitToSend).1
    x.CallsOldestFirst ∧
      ((x.registry 0).queue ⟨0, ⟨0⟩⟩ .senders).map (·.ticket.number) = [0, 1, 2] ∧
      ((x.trailOf firstComesTooLate).flatMap (·.callees 0 ⟨0, ⟨0⟩⟩ .senders)).map
        (·.ticket.number) = [0, 2] ∧
      (((x.followAll firstComesTooLate).registry 0).queue ⟨0, ⟨0⟩⟩ .senders).map
        (·.ticket.number) = [3] := by
  intro x
  have obeys : (new false).Obeys .full threeWaitToSend := by decide +kernel
  have reachable : x.Reachable .full := (reachable_new .full false).runScript obeys
  exact ⟨called_oldest_first reachable.arises, by decide +kernel, by decide +kernel,
    by decide +kernel⟩

end Executor

end MessageBus

import MessageBus.Proofs.LeavingOut.Absentees
import MessageBus.Proofs.WaitEntries

/-!
# Tickets with other numbers

A bus that nobody waits on with a ticket is, without that ticket, the same bus with other numbers on
the tickets of those who wait, in the same order, and with another number to give out next.
-/

namespace MessageBus

variable {ω : Type}

/-- The same callers in the same order, with other tickets. -/
def WaitLine.renumber (f : Ticket → Ticket) (l : WaitLine ω) : WaitLine ω :=
  ⟨l.waiters.map fun w => { w with ticket := f w.ticket }⟩

def Channel.renumber (f : Ticket → Ticket) (c : Channel ω) : Channel ω :=
  { c with senders := c.senders.renumber f, receivers := c.receivers.renumber f }

def Registry.renumber (f : Ticket → Ticket) (r : Registry ω) : Registry ω :=
  { r with slots := r.slots.map (·.map (·.renumber f)) }

/-- Two registries are the same, but for the numbers of the tickets, whose order is the same, and
for the number that is given out next. -/
def Registry.SameInOrder (r r' : Registry ω) : Prop :=
  ∃ f : Ticket → Ticket,
    (∀ e ∈ r.waiting, ∀ e' ∈ r.waiting, e.1.ticket.number < e'.1.ticket.number →
      (f e.1.ticket).number < (f e'.1.ticket).number) ∧
    r' = { r.renumber f with nextTicket := r'.nextTicket }

variable {r : Registry ω} {c : Channel ω} {t : Ticket}

theorem Channel.leavingOut_eq_renumber (out : ∀ side, t ∉ c.tickets side) :
    c.leavingOut t = c.renumber (·.leavingOut t) := by
  have senders : c.senders.leavingOut t = c.senders.renumber (·.leavingOut t) :=
    congrArg WaitLine.mk (WaitLine.waiters_leavingOut_of_not_mem (out .senders))
  have receivers : c.receivers.leavingOut t = c.receivers.renumber (·.leavingOut t) :=
    congrArg WaitLine.mk (WaitLine.waiters_leavingOut_of_not_mem (out .receivers))
  rw [leavingOut, senders, receivers]
  rfl

/-- Nobody is missed on a bus where nobody waits with the ticket. -/
theorem Registry.sameInOrder_leavingOut
    (out : ∀ p : Place, p.ticket = t → r.isQueued p = false) :
    r.SameInOrder (r.leavingOut t) := by
  refine ⟨(·.leavingOut t), fun e member e' member' before => ?_, ?_⟩
  · have other {e : Place × ω} (member : e ∈ r.waiting) : e.1.ticket ≠ t := by
      intro own
      have queued := isQueued_iff_mem_waiting.2 (List.mem_map_of_mem member)
      cases queued.symm.trans (out e.1 own)
    exact (Ticket.leavingOut_lt_iff (other member) (other member')).2 before
  · have slots : r.slots.map (·.map (·.leavingOut t)) =
        r.slots.map (·.map (·.renumber (·.leavingOut t))) := by
      refine List.map_congr_left fun slot member => ?_
      cases slot with
      | none => rfl
      | some c =>
        obtain ⟨h, there⟩ := List.mem_iff_getElem?.1 member
        refine congrArg some (Channel.leavingOut_eq_renumber fun side inside => ?_)
        have found := find?_of_channel? (channel?_eq_some_iff.2 there)
        have queued := (isQueued_of_find? (p := ⟨⟨h, c.id⟩, side, t⟩) found).2 inside
        cases queued.symm.trans (out _ rfl)
    exact congrArg (fun slots => Registry.mk slots r.nextId (r.leavingOut t).nextTicket) slots

end MessageBus

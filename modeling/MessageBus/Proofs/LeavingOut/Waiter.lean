import MessageBus.Proofs.LeavingOut.Errands
import MessageBus.Proofs.Wakeups

/-!
# The waiter that is left out

Without a waiter, a bus does not show that it comes, as long as it calls nobody, nor that it looks
at its place before it is called, nor that it goes then. It was never there.
-/

namespace MessageBus

variable {ω : Type}

namespace Channel

variable {c : Channel ω} {t : Ticket} {k : ω} {side : Side} {l : WaitLine ω}

/-- A line that differs in one waiter is the same without that waiter. -/
theorem leavingOut_setLine_self (same : l.leavingOut t = (c.line side).leavingOut t) :
    (c.setLine side l).leavingOut t = c.leavingOut t := by
  rw [← setLine_leavingOut, same, setLine_leavingOut]
  cases side <;> rfl

/-- A channel on which all tickets are older is the same without a younger one. -/
theorem leavingOut_of_forall_lt (older : ∀ side, ∀ s ∈ c.tickets side, s.number < t.number) :
    c.leavingOut t = c := by
  have senders : c.senders.leavingOut t = c.senders :=
    WaitLine.leavingOut_of_forall_lt (older .senders)
  have receivers : c.receivers.leavingOut t = c.receivers :=
    WaitLine.leavingOut_of_forall_lt (older .receivers)
  rw [leavingOut, senders, receivers]

/-- Whoever waits for space calls nobody by that, nor does a receiver where there is some. -/
theorem join_leavingOut_self (roomy : side = .receivers → c.hasSpace = true) :
    (c.join t k side).leavingOut t = c.leavingOut t ∧ c.joinCalls t k side = [] := by
  cases side with
  | senders =>
    refine ⟨?_, rfl⟩
    show Channel.mk c.id c.capacity c.queue (WaitLine.leavingOut ⟨_⟩ t) _ = _
    rw [WaitLine.leavingOut_concat_self]
    rfl
  | receivers =>
    let d : Channel ω := { c with receivers := ⟨c.receivers.waiters ++ [⟨t, k⟩]⟩ }
    have space : d.hasSpace = true := roomy rfl
    have parked : d.receiverParked = (d, []) := by
      rw [receiverParked, space, Bool.not_true, Bool.and_false, if_neg Bool.false_ne_true]
    refine ⟨?_, congrArg (·.2) parked⟩
    show (d.receiverParked.1).leavingOut t = _
    rw [parked]
    show Channel.mk c.id c.capacity c.queue _ (WaitLine.leavingOut ⟨_⟩ t) = _
    rw [WaitLine.leavingOut_concat_self]
    rfl

end Channel

namespace Registry

variable {r : Registry ω} {t : Ticket} {a : Address} {c c' : Channel ω} {k : ω} {p : Place}

theorem put_leavingOut_self (found : r.find? a = some c)
    (same : c'.leavingOut t = c.leavingOut t) :
    (r.put a.handle c').leavingOut t = r.leavingOut t := by
  rw [← put_leavingOut, same, put_leavingOut, put_self (channel?_of_find? found).1]

/-- A bus on which all tickets are older is the same without the next one. -/
theorem leavingOut_issue_self
    (older : ∀ h c, r.channel? h = some c → ∀ side, ∀ s ∈ c.tickets side,
      s.number < r.nextTicket) : r.issue.leavingOut ⟨r.nextTicket⟩ = r := by
  have slots : r.slots.map (·.map (·.leavingOut ⟨r.nextTicket⟩)) = r.slots := by
    refine (List.map_congr_left fun slot member => ?_).trans (List.map_id r.slots)
    cases slot with
    | none => rfl
    | some c =>
      obtain ⟨h, there⟩ := List.mem_iff_getElem?.1 member
      exact congrArg some
        (Channel.leavingOut_of_forall_lt (older h c (channel?_eq_some_iff.2 there)))
  exact congrArg (fun slots => Registry.mk slots r.nextId r.nextTicket) slots

/-- Without the waiter, it does not show that it went to wait. -/
theorem leavingOut_park_self {side : Side} {o : Outcome (Registry ω) ω (Option Place)}
    (found : r.find? a = some c) (ran : r.park a side k = .ok o)
    (older : ∀ h c, r.channel? h = some c → ∀ side, ∀ s ∈ c.tickets side,
      s.number < r.nextTicket) (roomy : side = .receivers → c.hasSpace = true) :
    o.state.leavingOut ⟨r.nextTicket⟩ = r ∧ o.woken = [] := by
  have joins := joins_of_park found ran
  obtain ⟨joined, calls⟩ := Channel.join_leavingOut_self (t := ⟨r.nextTicket⟩) (k := k) roomy
  have found' : r.issue.find? a = some c := found
  rw [joins.state, joins.woken, put_leavingOut_self found' joined, calls]
  exact ⟨leavingOut_issue_self older, rfl⟩

/-- Nor that it looked at its place, which is still queued. -/
theorem leavingOut_revisit_self (queued : r.isQueued p = true) (k : ω) :
    (r.revisit p k).state.leavingOut p.ticket = r.leavingOut p.ticket := by
  obtain ⟨c, found, inside⟩ := exists_of_isQueued queued
  cases fresh : (c.line p.side).refresh? p.ticket k with
  | none => exact absurd inside ((WaitLine.refresh?_eq_none_iff _ _ _).1 fresh)
  | some l =>
    simp only [revisit, found, fresh]
    refine put_leavingOut_self found ?_
    exact Channel.leavingOut_setLine_self (WaitLine.leavingOut_of_refresh? fresh)

/-- Nor that it gave its place up before it was called. -/
theorem leavingOut_abandon_self (queued : r.isQueued p = true) :
    (r.abandon p).state.leavingOut p.ticket = r.leavingOut p.ticket ∧
      (r.abandon p).woken = [] := by
  obtain ⟨c, found, inside⟩ := exists_of_isQueued queued
  obtain ⟨l, gone, -⟩ := WaitLine.remove?_of_mem inside
  simp only [abandon, found, gone]
  refine ⟨put_leavingOut_self found ?_, trivial⟩
  exact Channel.leavingOut_setLine_self (WaitLine.leavingOut_of_remove? gone)

/-- Nobody is queued any more at a place that was given up. -/
theorem isQueued_abandon_self {held : List Stay} (bal : r.Balanced held)
    (queued : r.isQueued p = true) : (r.abandon p).state.isQueued p = false := by
  obtain ⟨c, l, found, -, left, state⟩ := abandon_of_queued queued
  have after : (r.abandon p).state.find? p.address = some (c.setLine p.side l) := by
    rw [state, find?_put found (c.id_setLine _ _), if_pos rfl]
  rw [← Bool.not_eq_true, isQueued_of_find? after, Channel.tickets, Channel.line_setLine, left]
  exact (bal.single _ c p.side found).not_mem_erase

end Registry

/-- Nor that a call found its channel in its way and went to wait, for space or for messages in a
channel that has slots. -/
theorem Request.leavingOut_look_self {q q' : Request} {r : Registry ω} {k : ω} {p : Place}
    {o : Outcome (Registry ω) ω Turn} (ran : q.look r none k = .ok o)
    (answer : o.answer = .parked q' p)
    (older : ∀ h c, r.channel? h = some c → ∀ side, ∀ s ∈ c.tickets side,
      s.number < r.nextTicket)
    (roomy : p.side = .receivers → ∀ c, r.find? p.address = some c → 0 < c.capacity) :
    p.ticket = ⟨r.nextTicket⟩ ∧ o.state.leavingOut p.ticket = r ∧ o.woken = [] := by
  have ends := ends_of_look ran
  rw [answer] at ends
  generalize o.state = r', o.woken = woken at ends ⊢
  cases ends with
  | parked _ blocked found parks =>
    refine ⟨rfl, Registry.leavingOut_park_self found parks older fun receives => ?_⟩
    have empty := (Registry.empty_of_blocked blocked receives found).1
    rw [Channel.hasSpace_iff, empty]
    exact roomy receives _ found

end MessageBus

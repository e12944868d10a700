import MessageBus.Proofs.WaitEntries.Errands

/-!
# A place looked at again

Whoever looks at his place before he was called leaves a new waker there, and that is all
(`Registry.renew`): the same callers stand in the same lines under the same tickets, in the same
order, the queues are as they were, and no ticket is used up (`Registry.revisit_eq_renew`). So a
request that is looked at again while its place is queued is left waiting.
-/

namespace MessageBus

variable {ω : Type}

/-- The same stay in a line, with another waker if it is the one under this ticket. -/
def Waiter.renew (t : Ticket) (k : ω) (w : Waiter ω) : Waiter ω :=
  { w with waker := if w.ticket = t then k else w.waker }

/-- The same callers in the same order, of whom the one with this ticket has another waker. -/
def WaitLine.renew (l : WaitLine ω) (t : Ticket) (k : ω) : WaitLine ω :=
  ⟨l.waiters.map (·.renew t k)⟩

/-- The same channels with the same queues and lines, in which the caller at one place has another
waker. -/
def Registry.renew (r : Registry ω) (p : Place) (k : ω) : Registry ω :=
  { r with
    slots := r.slots.modify p.address.handle
      (·.map fun c => c.setLine p.side ((c.line p.side).renew p.ticket k)) }

namespace WaitLine

/-- Where no ticket stands twice, it does not matter that only the first waker is replaced. -/
theorem eq_renew_of_refresh? {l l' : WaitLine ω} {t : Ticket} {k : ω} (single : l.tickets.Nodup)
    (fresh : l.refresh? t k = some l') : l' = l.renew t k := by
  have others (ws : List (Waiter ω)) (out : t ∉ ws.map (·.ticket)) :
      ws.map (·.renew t k) = ws := by
    refine (List.map_congr_left fun w member => ?_).trans (List.map_id ws)
    rw [Waiter.renew, if_neg fun same => out (List.mem_map.2 ⟨w, member, same⟩)]
    rfl
  have replaced (ws ws' : List (Waiter ω)) (single : (ws.map (·.ticket)).Nodup)
      (found : replaceWaker t k ws = some ws') : ws' = ws.map (·.renew t k) := by
    induction ws generalizing ws' with
    | nil => cases found
    | cons w ws ih =>
      obtain ⟨out, single⟩ := List.nodup_cons.1 single
      rw [replaceWaker] at found
      split at found
      · rename_i same
        cases found
        subst same
        rw [List.map_cons, others ws out, Waiter.renew, if_pos rfl]
      · rename_i other
        obtain ⟨later, found', rfl⟩ := Option.map_eq_some_iff.1 found
        rw [List.map_cons, ← ih later single found', Waiter.renew, if_neg other]
  obtain ⟨ws, found, rfl⟩ := Option.map_eq_some_iff.1 fresh
  exact congrArg WaitLine.mk (replaced l.waiters ws single found)

end WaitLine

namespace Registry

variable {r : Registry ω} {held : List Stay} {p : Place} {k : ω}

/-- A look at a place that is still queued leaves a new waker there, and that is all. -/
theorem revisit_eq_renew (bal : r.Balanced held) (queued : r.isQueued p = true) (k : ω) :
    r.revisit p k = { answer := .queued, state := r.renew p k } := by
  obtain ⟨c, found, inside⟩ := exists_of_isQueued queued
  cases fresh : (c.line p.side).refresh? p.ticket k with
  | none => exact absurd inside ((WaitLine.refresh?_eq_none_iff _ _ _).1 fresh)
  | some l =>
    obtain ⟨slot, -⟩ := find?_eq_some_iff.1 found
    have line := WaitLine.eq_renew_of_refresh? (bal.single _ c p.side found) fresh
    have slots : r.slots.modify p.address.handle
        (·.map fun c => c.setLine p.side ((c.line p.side).renew p.ticket k)) =
          r.slots.set p.address.handle (some (c.setLine p.side l)) := by
      rw [List.modify_eq_set, channel?_eq_some_iff.1 slot, line]
      rfl
    simp only [revisit, found, fresh, renew, slots, put]

end Registry

namespace Request

variable {r : Registry ω} {held : List Stay} {p : Place}

/-- A request whose place is still queued is left waiting there. -/
theorem look_of_queued (bal : r.Balanced held) (queued : r.isQueued p = true) (q : Request)
    (k : ω) : q.look r (some p) k = .ok { answer := .waiting, state := r.renew p k } := by
  rw [look, advance, Registry.revisit_eq_renew bal queued]
  rfl

end Request

end MessageBus

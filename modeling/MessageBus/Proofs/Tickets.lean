import MessageBus.Channel
import Mathlib.Data.List.Basic

/-!
# The tickets in a line

For the question who waits, a line is the list of its tickets. Every operation of a channel takes
tickets out of its lines and puts none in: what is left of a line is a sublist of what it was
(`Channel.Shrinks`). Only parking adds a ticket, at the end.
-/

namespace MessageBus

namespace WaitLine

variable {ω : Type}

/-- The tickets in a line, in the order in which they came. -/
def tickets (l : WaitLine ω) : List Ticket := l.waiters.map (·.ticket)

@[simp] theorem length_tickets (l : WaitLine ω) : l.tickets.length = l.size := by
  simp [tickets, size]

theorem contains_iff_mem_tickets (l : WaitLine ω) (t : Ticket) :
    l.contains t = true ↔ t ∈ l.tickets := by
  simp [contains, tickets]

/-- A ticket that is new to a line goes to its end. -/
theorem push_of_not_mem {l : WaitLine ω} {t : Ticket} (k : ω) (h : t ∉ l.tickets) :
    l.push t k = .ok ⟨l.waiters ++ [⟨t, k⟩]⟩ := by
  have hc : ¬ l.contains t = true := by rwa [contains_iff_mem_tickets]
  exact if_neg hc

@[simp] theorem tickets_wakeFirst (l : WaitLine ω) : l.wakeFirst.1.tickets = l.tickets.tail := by
  rcases l with ⟨_ | ⟨w, rest⟩⟩ <;> rfl

@[simp] theorem size_wakeFirst (l : WaitLine ω) : l.wakeFirst.1.size = l.size - 1 := by
  rw [← length_tickets, tickets_wakeFirst, List.length_tail, length_tickets]

theorem tickets_wakeUpTo (l : WaitLine ω) (n : Nat) :
    (l.wakeUpTo n).1.tickets = l.tickets.drop n := by
  induction n generalizing l with
  | zero => rfl
  | succ n ih =>
    rcases l with ⟨_ | ⟨w, rest⟩⟩
    · rfl
    · exact ih ⟨rest⟩

theorem size_wakeUpTo (l : WaitLine ω) (n : Nat) : (l.wakeUpTo n).1.size = l.size - n := by
  rw [← length_tickets, tickets_wakeUpTo, List.length_drop, length_tickets]

theorem tickets_of_replaceWaker {t : Ticket} {k : ω} {ws ws' : List (Waiter ω)}
    (h : replaceWaker t k ws = some ws') : ws'.map (·.ticket) = ws.map (·.ticket) := by
  induction ws generalizing ws' with
  | nil => cases h
  | cons w rest ih =>
    rw [replaceWaker] at h
    split at h
    · rename_i same
      cases h
      simp [same]
    · obtain ⟨later, found, rfl⟩ := Option.map_eq_some_iff.1 h
      simp [ih found]

theorem replaceWaker_eq_none_iff (t : Ticket) (k : ω) (ws : List (Waiter ω)) :
    replaceWaker t k ws = none ↔ t ∉ ws.map (·.ticket) := by
  induction ws with
  | nil => simp [replaceWaker]
  | cons w rest ih =>
    rw [replaceWaker]
    split
    · rename_i same
      simp [same]
    · rename_i other
      rw [Option.map_eq_none_iff, ih, List.map_cons, List.mem_cons, not_or]
      exact ⟨fun h => ⟨fun e => other e.symm, h⟩, fun h => h.2⟩

theorem refresh?_eq_none_iff (l : WaitLine ω) (t : Ticket) (k : ω) :
    l.refresh? t k = none ↔ t ∉ l.tickets := by
  rw [refresh?, Option.map_eq_none_iff]
  exact replaceWaker_eq_none_iff t k l.waiters

/-- A new waker changes nobody's place. -/
theorem tickets_of_refresh? {l l' : WaitLine ω} {t : Ticket} {k : ω}
    (h : l.refresh? t k = some l') : l'.tickets = l.tickets := by
  obtain ⟨ws, found, rfl⟩ := Option.map_eq_some_iff.1 h
  exact tickets_of_replaceWaker found

theorem remove?_of_not_mem {l : WaitLine ω} {t : Ticket} (h : t ∉ l.tickets) :
    l.remove? t = none := by
  have hc : ¬ l.contains t = true := by rwa [contains_iff_mem_tickets]
  exact if_neg hc

/-- Whoever leaves the line takes one ticket out of it, the own one. -/
theorem remove?_of_mem {l : WaitLine ω} {t : Ticket} (h : t ∈ l.tickets) :
    ∃ l', l.remove? t = some l' ∧ l'.tickets = l.tickets.erase t := by
  refine ⟨_, if_pos ((l.contains_iff_mem_tickets t).2 h), ?_⟩
  rw [tickets, tickets, List.erase_eq_eraseP', List.eraseP_map]
  congr 2

end WaitLine

namespace Channel

variable {ω : Type}

/-- The tickets on one side of a channel. -/
def tickets (c : Channel ω) (side : Side) : List Ticket := (c.line side).tickets

/-- Another state of the same channel, in which nobody waits who did not wait before. -/
def Shrinks (c c' : Channel ω) : Prop :=
  c'.id = c.id ∧ ∀ side, (c'.tickets side).Sublist (c.tickets side)

theorem Shrinks.refl (c : Channel ω) : c.Shrinks c := ⟨rfl, fun _ => List.Sublist.refl _⟩

theorem Shrinks.trans {c d e : Channel ω} (h : c.Shrinks d) (h' : d.Shrinks e) : c.Shrinks e :=
  ⟨h'.1.trans h.1, fun side => (h'.2 side).trans (h.2 side)⟩

end Channel

end MessageBus

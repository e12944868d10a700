import MessageBus.Proofs.Positions
import MessageBus.Proofs.Sums
import Mathlib.Data.Prod.Lex
import Mathlib.Order.WellFounded

/-!
# What is left to do

Being woken does not say that there is anything to do. Whoever looks in vain parks again, and may
wake others by that: a receiver that parks on an empty channel without slots wakes every sender
there, and a broadcast moves from channel to channel. What gets less with every step is
`Executor.effort`. It consists of five numbers, of which the first counts most.

* `work`: the instructions that are left to the tasks, and how far they have come with the current
  one.
* `load`: the messages that are buffered. A stream that receives an item comes no further with its
  instruction, but takes a message away.
* `unheard`: the places that tasks might still take in lines of receivers. A receiver that parks
  wakes senders only, so it makes this number less for good.
* `unqueued`: the places that tasks might still take in any line, and the tasks that might still
  yield. A sender that parks wakes nobody.
* `chores`: the frames on the stack and the tasks on the ready list, weighed so that a frame counts
  more than those that replace it.
-/

namespace MessageBus

/-! ### The five numbers -/

/-- What is left of the programs of a task. Someone who is over still has places to give up. -/
def Task.work (task : Task) : Nat :=
  match task.life with
  | .idle => 5 + 3 * (task.program.length - task.position)
  | .running => 3 + 3 * (task.program.length - task.position)
  | .ended => task.places.length

/-- How much of an instruction is left with a frame. -/
def Frame.work : Frame → Nat
  | .proceed _ => 2
  | .suspend _ => 2
  | .receive _ (some _) => 2
  | .receive _ none => 1
  | .adopt _ _ => 1
  | _ => 0

/-- How many messages are buffered. -/
def Registry.load {ω : Type} (r : Registry ω) : Nat :=
  (r.slots.map fun slot => (slot.map (·.size)).getD 0).sum

/-- How many places a task might still take in certain lines. -/
def Task.unqueued (queued : Nat × Place → Bool) (task : Task) : Nat :=
  2 - task.places.countP queued

/-- Whether a task might still yield. -/
def Task.mayYield (task : Task) : Nat := if task.progress = .fresh then 1 else 0

/-- How many steps are to be made for a frame without getting any further. -/
def Frame.chores : Frame → Nat
  | .wake wakers => 10 * wakers.length + 1
  | .poll _ => 8
  | .receive _ _ => 7
  | .proceed _ => 6
  | .conclude _ _ _ _ _ _ _ => 2
  | _ => 1

namespace Executor

/-- Whether a place is in its line. -/
def isQueued (x : Executor) (held : Nat × Place) : Bool := (x.registry held.1).isQueued held.2

/-- Whether a place is in its line, and that is one of receivers. -/
def isHeard (x : Executor) (held : Nat × Place) : Bool :=
  held.2.side = .receivers && x.isQueued held

def work (x : Executor) : Nat := (x.tasks.map (·.work)).sum + (x.stack.map (·.work)).sum

def load (x : Executor) : Nat := (x.buses.map (·.registry.load)).sum

def unheard (x : Executor) : Nat := (x.tasks.map (·.unqueued x.isHeard)).sum

def unqueued (x : Executor) : Nat :=
  (x.tasks.map fun task => task.unqueued x.isQueued + task.mayYield).sum

def chores (x : Executor) : Nat := (x.stack.map (·.chores)).sum + 9 * x.ready.length

/-- How much is left to do. -/
def effort (x : Executor) : ℕ ×ₗ ℕ ×ₗ ℕ ×ₗ ℕ ×ₗ ℕ :=
  toLex (x.work, toLex (x.load, toLex (x.unheard, toLex (x.unqueued, x.chores))))

/-- The ways in which there is less to do after a step. -/
inductive Eases (x y : Executor) : Prop where
  | works (work : y.work < x.work)
  | takes (work : y.work ≤ x.work) (load : y.load < x.load)
  | hears (work : y.work ≤ x.work) (load : y.load ≤ x.load) (unheard : y.unheard < x.unheard)
  | queues (work : y.work ≤ x.work) (load : y.load ≤ x.load) (unheard : y.unheard ≤ x.unheard)
    (unqueued : y.unqueued < x.unqueued)
  | chores (work : y.work ≤ x.work) (load : y.load ≤ x.load) (unheard : y.unheard ≤ x.unheard)
    (unqueued : y.unqueued ≤ x.unqueued) (chores : y.chores < x.chores)

theorem Eases.effort_lt {x y : Executor} (eases : x.Eases y) : y.effort < x.effort := by
  have first {α : Type} [Preorder α] {m n : Nat} {a b : α} (less : m < n) :
      toLex (m, a) < toLex (n, b) := Prod.Lex.toLex_lt_toLex.2 (.inl less)
  have then' {α : Type} [Preorder α] {m n : Nat} {a b : α} (le : m ≤ n) (less : a < b) :
      toLex (m, a) < toLex (n, b) := by
    rcases Nat.lt_or_eq_of_le le with lt | rfl
    · exact first lt
    · exact Prod.Lex.toLex_lt_toLex.2 (.inr ⟨rfl, less⟩)
  cases eases with
  | works work => exact first work
  | takes work load => exact then' work (first load)
  | hears work load unheard => exact then' work (then' load (first unheard))
  | queues work load unheard unqueued =>
    exact then' work (then' load (then' unheard (first unqueued)))
  | chores work load unheard unqueued chores =>
    exact then' work (then' load (then' unheard (then' unqueued chores)))

end Executor

/-! ### What a registry holds -/

theorem Channel.tickets_setLine_of_same {ω : Type} {c : Channel ω} {side : Side} {l : WaitLine ω}
    (same : l.tickets = c.tickets side) (s : Side) :
    (c.setLine side l).tickets s = c.tickets s := by
  cases side <;> cases s
  · exact same
  · rfl
  · rfl
  · exact same

namespace Registry

variable {ω : Type} {r : Registry ω} {a : Address} {c c' : Channel ω} {p : Place} {side : Side}
  {k : ω}

theorem load_put_le (found : r.find? a = some c) (c' : Channel ω) :
    (r.put a.handle c').load + c.size ≤ r.load + c'.size := by
  have slot := channel?_eq_some_iff.1 (find?_eq_some_iff.1 found).1
  exact sum_map_set_le (f := fun slot => (slot.map (·.size)).getD 0) (fun _ _ => Nat.le_refl _)
    slot (some c')

/-- Whoever parks changes no messages. -/
theorem load_park_le (found : r.find? a = some c) {o : Outcome (Registry ω) ω (Option Place)}
    (ran : r.park a side k = .ok o) : o.state.load ≤ r.load := by
  have found' : r.issue.find? a = some c := found
  have put := load_put_le found' (c.join ⟨r.nextTicket⟩ k side)
  rw [Channel.size, Channel.size, Channel.queue_join] at put
  rw [(joins_of_park found ran).state]
  exact Nat.le_of_add_le_add_right put

theorem load_revisit_le (r : Registry ω) (p : Place) (k : ω) :
    (r.revisit p k).state.load ≤ r.load := by
  rcases r.standing_cases p with queued | called | gone
  · obtain ⟨c, l, found, -, -, state⟩ := revisit_of_queued queued k
    have put := load_put_le found (c.setLine p.side l)
    rw [Channel.size, Channel.size, Channel.queue_setLine] at put
    rw [state]
    exact Nat.le_of_add_le_add_right put
  · rw [(revisit_of_called called k).2]
  · rw [(revisit_of_gone gone k).2]

/-- A receive that is granted takes a message away. -/
theorem load_recv_lt {o : Outcome (Registry ω) ω Attempt} {v : Value}
    (ran : (Request.recv a).attempt r = .ok o) (answer : o.answer = .finished (.ok v)) :
    o.state.load < r.load := by
  obtain ⟨o', ran', fares⟩ := (Request.recv a).attempt_fares r
  cases ran.symm.trans ran'
  rw [answer] at fares
  generalize o.state = r' at fares
  cases fares with
  | granted granted =>
    cases granted with
    | @recv _ _ c found some =>
      have put := load_put_le found c.tryRecv.state
      have size := (Channel.becomes_tryRecv some).2.messages
      rw [Channel.size, Channel.size, size] at put
      omega

/-- Whoever parks with the receivers keeps the other receivers queued, and whoever parks with the
senders keeps everybody queued. -/
theorem isQueued_park (found : r.find? a = some c) {o : Outcome (Registry ω) ω (Option Place)}
    (ran : r.park a side k = .ok o) : o.state.isQueued ⟨a, side, ⟨r.nextTicket⟩⟩ = true ∧
      ∀ p, side = .senders ∨ p.side = .receivers → r.isQueued p = true →
        o.state.isQueued p = true := by
  have found' : r.issue.find? a = some c := found
  have put := find?_put found' (c.id_join ⟨r.nextTicket⟩ k side)
  rw [(joins_of_park found ran).state]
  constructor
  · have here := put a
    rw [if_pos rfl] at here
    refine (isQueued_of_find? here).2 ?_
    cases side
    · rw [(c.tickets_join_senders ⟨r.nextTicket⟩ k).1]
      exact List.mem_append_right _ (List.mem_singleton_self _)
    · rw [(c.tickets_join_receivers ⟨r.nextTicket⟩ k).2]
      exact List.mem_append_right _ (List.mem_singleton_self _)
  · intro p kept queued
    obtain ⟨d, there, inside⟩ := exists_of_isQueued queued
    have here := put p.address
    by_cases same : p.address = a
    · rw [if_pos same] at here
      rw [same] at there
      cases found.symm.trans there
      refine (isQueued_of_find? here).2 ?_
      rcases p with ⟨address, side', ticket⟩
      cases side <;> cases side'
      · rw [(c.tickets_join_senders ⟨r.nextTicket⟩ k).1]
        exact List.mem_append_left _ inside
      · rw [(c.tickets_join_senders ⟨r.nextTicket⟩ k).2]
        exact inside
      · rcases kept with kept | kept <;> cases kept
      · rw [(c.tickets_join_receivers ⟨r.nextTicket⟩ k).2]
        exact List.mem_append_left _ inside
    · rw [if_neg same] at here
      exact (isQueued_of_find? (here.trans there)).2 inside

/-- A look at a place moves nobody. -/
theorem isQueued_revisit {p' : Place} (queued : r.isQueued p' = true) (p : Place) (k : ω) :
    (r.revisit p k).state.isQueued p' = true := by
  rcases r.standing_cases p with here | called | gone
  · obtain ⟨c, l, found, tickets, -, state⟩ := revisit_of_queued here k
    obtain ⟨d, there, inside⟩ := exists_of_isQueued queued
    have put := find?_put found (c.id_setLine p.side l) p'.address
    rw [state]
    by_cases same : p'.address = p.address
    · rw [if_pos same] at put
      rw [same] at there
      cases found.symm.trans there
      refine (isQueued_of_find? put).2 ?_
      rw [Channel.tickets_setLine_of_same tickets]
      exact inside
    · rw [if_neg same] at put
      exact (isQueued_of_find? (put.trans there)).2 inside
  · rw [(revisit_of_called called k).2]
    exact queued
  · rw [(revisit_of_gone gone k).2]
    exact queued

end Registry

end MessageBus

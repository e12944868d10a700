import MessageBus.Failure

/-!
# Waiting lines

A `WaitLine` holds the callers that wait for one condition of a channel, in the order in which they
came. Each stands there under a ticket and leaves behind a *waker*, the means by which it is told
that it may go on. What a waker is, is left open (`ω`): a line never calls one, it only hands them
out, and so nothing that a waker does can happen while the line is being changed.

A caller that has been woken no longer stands in the line. If it finds that it must wait again, it
goes to the end.
-/

namespace MessageBus

/-- One caller's stay in a line. -/
structure Waiter (ω : Type) where
  ticket : Ticket
  waker : ω
deriving Repr

/-- Callers in the order in which they came. -/
structure WaitLine (ω : Type) where
  waiters : List (Waiter ω)
deriving Repr

namespace WaitLine

variable {ω : Type}

/-- The line in which nobody waits. -/
def empty : WaitLine ω := ⟨[]⟩

/-- How many callers wait. -/
def size (l : WaitLine ω) : Nat := l.waiters.length

/-- Whether nobody waits. -/
def isEmpty (l : WaitLine ω) : Bool := l.waiters.isEmpty

/-- Whether a caller stands in the line under this ticket. -/
def contains (l : WaitLine ω) (t : Ticket) : Bool := l.waiters.any (·.ticket = t)

/-- Goes to the end of the line. A ticket stands in a line once at most. -/
def push (l : WaitLine ω) (t : Ticket) (k : ω) : Except Fault (WaitLine ω) :=
  if l.contains t then .error (.alreadyQueued t) else .ok ⟨l.waiters ++ [⟨t, k⟩]⟩

/-- Replaces the waker of the first waiter with this ticket. -/
def replaceWaker (t : Ticket) (k : ω) : List (Waiter ω) → Option (List (Waiter ω))
  | [] => none
  | w :: rest =>
    if w.ticket = t then some (⟨t, k⟩ :: rest) else (replaceWaker t k rest).map (w :: ·)

/-- Leaves a new waker with a ticket and keeps its place; `none` if it does not stand here. -/
def refresh? (l : WaitLine ω) (t : Ticket) (k : ω) : Option (WaitLine ω) :=
  (replaceWaker t k l.waiters).map WaitLine.mk

/-- Takes a ticket out of the line; `none` if it does not stand here. -/
def remove? (l : WaitLine ω) (t : Ticket) : Option (WaitLine ω) :=
  if l.contains t then some ⟨l.waiters.eraseP (·.ticket = t)⟩ else none

/-- Wakes the caller that has waited longest: the line without it, and its waker. -/
def wakeFirst (l : WaitLine ω) : WaitLine ω × Option ω :=
  match l.waiters with
  | [] => (l, none)
  | w :: rest => (⟨rest⟩, some w.waker)

/-- Wakes at most `n` callers, oldest first. -/
def wakeUpTo (l : WaitLine ω) : Nat → WaitLine ω × List ω
  | 0 => (l, [])
  | n + 1 =>
    match l.wakeFirst with
    | (rest, none) => (rest, [])
    | (rest, some k) => let later := rest.wakeUpTo n; (later.1, k :: later.2)

/-- Wakes everybody, oldest first. -/
def wakeAll (l : WaitLine ω) : WaitLine ω × List ω := (empty, l.waiters.map (·.waker))

@[simp] theorem size_empty : (empty : WaitLine ω).size = 0 := rfl

theorem isEmpty_iff_size (l : WaitLine ω) : l.isEmpty = true ↔ l.size = 0 := by
  simp [isEmpty, size]

/-- Waking everybody calls as many as were waiting. -/
theorem length_wakeAll (l : WaitLine ω) : l.wakeAll.2.length = l.size := by
  simp [wakeAll, size]

end WaitLine

end MessageBus

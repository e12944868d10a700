import MessageBus.Failure

/-!
# Outcomes

An atomic operation on a bus answers its caller, leaves a new state, and owes a wakeup to some of
the callers that wait. It does not wake them itself: it hands out their wakers, in the order in
which they are to be called once the bus is free again. Whatever a waker sets off thus sees the
completed change. An `Outcome` holds these parts, together with the notes that observers of the bus
are told.
-/

namespace MessageBus

/-- What is worth telling about a bus. -/
inductive Note where
  | opened (handle : Handle) (capacity : Nat)
  /-- A channel was closed: how many callers it woke and how many messages it dropped. -/
  | closed (handle : Handle) (woken dropped : Nat)
  /-- All channels of a bus were closed at once. -/
  | deleted (channels woken : Nat)
  /-- A caller went to wait. -/
  | parked (handle : Handle) (side : Side) (ticket : Ticket)
  /-- A caller went on after it had been woken. -/
  | resumed (handle : Handle) (side : Side) (ticket : Ticket)
  /-- A caller went on and found its channel gone. -/
  | resumedOnClosed (handle : Handle) (ticket : Ticket)
  /-- A woken caller was dropped before it went on, and its wakeup was passed on. -/
  | wakeupForwarded
  /-- The channel that held up a broadcast was closed. -/
  | blockerClosed
deriving DecidableEq, Repr

/-- What one atomic operation leaves behind. -/
structure Outcome (σ ω α : Type) where
  answer : α
  state : σ
  /-- The wakers to call, in order, once the state is free. -/
  woken : List ω := []
  /-- What is told before the wakers are called. -/
  notes : List Note := []
  /-- What is told after the wakers have been called. -/
  afterwards : List Note := []

namespace Outcome

variable {σ τ ω α β : Type}

/-- Changes the answer only. -/
def map (f : α → β) (o : Outcome σ ω α) : Outcome σ ω β := { o with answer := f o.answer }

/-- Changes the state only, as for a part seen within the whole. -/
def within (f : σ → τ) (o : Outcome σ ω α) : Outcome τ ω α := { o with state := f o.state }

/-- Goes on from an outcome within the same atomic operation: what both owe adds up. -/
def andThen (o : Outcome σ ω α) (next : α → σ → Except Fault (Outcome σ ω β)) :
    Except Fault (Outcome σ ω β) :=
  (next o.answer o.state).map fun p =>
    { p with
      woken := o.woken ++ p.woken
      notes := o.notes ++ p.notes
      afterwards := o.afterwards ++ p.afterwards }

/-- What is owed first is woken first. -/
theorem andThen_of_ok {o : Outcome σ ω α} {next : α → σ → Except Fault (Outcome σ ω β)}
    {p : Outcome σ ω β} (h : next o.answer o.state = .ok p) :
    o.andThen next = .ok
      { p with
        woken := o.woken ++ p.woken
        notes := o.notes ++ p.notes
        afterwards := o.afterwards ++ p.afterwards } := by
  simp [andThen, h, Except.map]

@[simp] theorem answer_map (f : α → β) (o : Outcome σ ω α) : (o.map f).answer = f o.answer := rfl

@[simp] theorem state_map (f : α → β) (o : Outcome σ ω α) : (o.map f).state = o.state := rfl

@[simp] theorem woken_map (f : α → β) (o : Outcome σ ω α) : (o.map f).woken = o.woken := rfl

@[simp] theorem answer_within (f : σ → τ) (o : Outcome σ ω α) :
    (o.within f).answer = o.answer := rfl

@[simp] theorem state_within (f : σ → τ) (o : Outcome σ ω α) :
    (o.within f).state = f o.state := rfl

@[simp] theorem woken_within (f : σ → τ) (o : Outcome σ ω α) : (o.within f).woken = o.woken := rfl

end Outcome

end MessageBus

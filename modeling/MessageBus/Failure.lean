import MessageBus.Basic

/-!
# Failures

There are two kinds. A `BusError` is an answer: the caller asked for something that the bus cannot
give. A `Fault` is a broken promise between the parts of a bus; no operation of a bus leads to one,
but the queues can be misused directly and then say so.

The code of the last error is kept in one slot. A successful operation leaves it as it is, so it
always tells about the most recent failure: `ErrorCode.after`.
-/

namespace MessageBus

/-- Why an operation on a bus was refused. -/
inductive BusError where
  /-- No channel is open under the handle, or it closed while the caller was waiting. -/
  | noSuchChannel
  /-- The operation could only go on by suspending its caller. -/
  | wouldBlock
deriving DecidableEq, Repr

/-- What the slot of the last error holds. -/
inductive ErrorCode where
  | none
  | noSuchChannel
  | wouldBlock
deriving DecidableEq, Repr

/-- The slot is empty until the first failure. -/
instance : Inhabited ErrorCode := ⟨.none⟩

/-- The code under which an error is remembered. -/
def BusError.code : BusError → ErrorCode
  | .noSuchChannel => .noSuchChannel
  | .wouldBlock => .wouldBlock

/-- The wording of a code. -/
def ErrorCode.message : ErrorCode → String
  | .none => "no error"
  | .noSuchChannel => "no such channel"
  | .wouldBlock => "operation would block"

/-- The wording of an error is that of its code. -/
def BusError.message (e : BusError) : String := e.code.message

/-- The slot after an operation with this result. -/
def ErrorCode.after {α : Type} (last : ErrorCode) : Except BusError α → ErrorCode
  | .ok _ => last
  | .error e => e.code

@[simp] theorem ErrorCode.after_ok {α : Type} (last : ErrorCode) (a : α) :
    last.after (.ok a) = last := rfl

@[simp] theorem ErrorCode.after_error {α : Type} (last : ErrorCode) (e : BusError) :
    last.after (.error e : Except BusError α) = e.code := rfl

/-- An error never empties the slot. -/
theorem BusError.code_ne_none (e : BusError) : e.code ≠ .none := by
  cases e <;> decide

/-- A broken promise between the parts of a bus. -/
inductive Fault where
  /-- More messages were asked of a queue than it holds. -/
  | overdraw (wanted held : Nat)
  /-- A ticket was queued while it was still in the line. -/
  | alreadyQueued (ticket : Ticket)
  /-- A waiting call was dropped while its bus was in use. -/
  | droppedInUse
  /-- A bus was entered while it was in use. -/
  | entered
  /-- There is no such bus. -/
  | noSuchBus
deriving DecidableEq, Repr

/-- The wording of a fault. -/
def Fault.message : Fault → String
  | .overdraw wanted held => s!"popping {wanted} messages from a queue of {held}"
  | .alreadyQueued ticket => s!"ticket Ticket({ticket.number}) is already parked in this queue"
  | .droppedInUse => "parked call dropped while the bus state is borrowed"
  | .entered => "the bus was entered while it was in use"
  | .noSuchBus => "no such bus"

end MessageBus

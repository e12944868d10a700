import MessageBus.Failure

/-!
# Commands to the slot of the last error

What can be done with errors and their codes, as data. Only `set` and a recorded failure change the
slot.
-/

namespace MessageBus.ErrorCode

/-- Something that is asked about errors. -/
inductive Command (α : Type) where
  | set (c : ErrorCode)
  | get
  /-- Records the result of an operation. -/
  | record (result : Except BusError α)
  | codeOf (e : BusError)
  /-- The code before anything failed. -/
  | initial
  | errorMessage (e : BusError)
  | codeMessage (c : ErrorCode)
  | equal (c d : ErrorCode)

/-- What is answered. -/
inductive Answer (α : Type) where
  | nothing
  | code (c : ErrorCode)
  | result (r : Except BusError α)
  | text (s : String)
  | flag (b : Bool)

variable {α : Type}

/-- Carries out a command. -/
def Command.run (last : ErrorCode) : Command α → Answer α × ErrorCode
  | .set c => (.nothing, c)
  | .get => (.code last, last)
  | .record result => (.result result, last.after result)
  | .codeOf e => (.code e.code, last)
  | .initial => (.code default, last)
  | .errorMessage e => (.text e.message, last)
  | .codeMessage c => (.text c.message, last)
  | .equal c d => (.flag (c = d), last)

end MessageBus.ErrorCode

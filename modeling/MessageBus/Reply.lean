import MessageBus.Failure

/-!
# Replies

What the bus and the tasks on it answer. A `Reply` keeps apart what may be refused, the two cases
`granted` and `refused`, from what is always answered.
-/

namespace MessageBus

/-- What an operation gives if it is not refused. -/
inductive Value where
  | nothing
  | flag (b : Bool)
  | number (n : Nat)
  | message (m : Message)
  | messages (ms : List Message)
deriving DecidableEq, Repr

/-- The message that a value is, if it is one. -/
def Value.message? : Value → Option Message
  | .message m => some m
  | _ => none

/-- The answer to one operation. -/
inductive Reply where
  /-- An answer that is always given. -/
  | plain (v : Value)
  | granted (v : Value)
  | refused (e : BusError)
  | code (c : ErrorCode)
  /-- The description of a part of the bus. -/
  | text (s : String)
  | lines (ls : List String)
  /-- An item of a stream, or its end. -/
  | item (m : Option Message)
  /-- The stream has no item yet. -/
  | notYet
  | noStream
  /-- No channel was resolved before. -/
  | noAddress
  /-- How a bare wait went: its description before, after each look, and what it and one more look
  at it answered. -/
  | wait (before : String) (after : List String) (result again : Except BusError Unit)
  /-- A task was asked to go on: whether it has ended; `none` if it could not. -/
  | went (ended : Option Bool)
  | fault (f : Fault)

/-- The reply to an operation that may be refused. -/
def Reply.ofResult : Except BusError Value → Reply
  | .ok v => .granted v
  | .error e => .refused e

/-- The result, with its value in the form of replies. -/
def Reply.ofExcept {α : Type} (value : α → Value) (result : Except BusError α) : Reply :=
  .ofResult (result.map value)

/-- The slot of the last error after a public operation with this reply. -/
def ErrorCode.afterReply (last : ErrorCode) : Reply → ErrorCode
  | .refused e => e.code
  | _ => last

/-- A reply changes the slot as the result that it stands for. -/
@[simp] theorem ErrorCode.afterReply_ofResult (last : ErrorCode) (result : Except BusError Value) :
    last.afterReply (.ofResult result) = last.after result := by
  cases result <;> rfl

end MessageBus

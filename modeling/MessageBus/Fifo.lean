import MessageBus.Failure

/-!
# First in, first out

A `Fifo` is its list of items, oldest first, so that list is also its view and needs no lemma.
Taking several items at once asks for no more than there are: `popMany` checks this before it
touches anything.
-/

namespace MessageBus

/-- A queue, oldest item first. -/
structure Fifo (α : Type) where
  items : List α
deriving Repr

namespace Fifo

variable {α : Type}

/-- The queue that holds nothing. -/
def empty : Fifo α := ⟨[]⟩

/-- How many items the queue holds. -/
def size (q : Fifo α) : Nat := q.items.length

/-- Whether the queue holds nothing. -/
def isEmpty (q : Fifo α) : Bool := q.items.isEmpty

/-- Adds an item at the end. -/
def push (q : Fifo α) (a : α) : Fifo α := ⟨q.items ++ [a]⟩

/-- Adds items at the end, in order. -/
def pushMany (q : Fifo α) (as : List α) : Fifo α := ⟨q.items ++ as⟩

/-- Takes the oldest item. -/
def pop? (q : Fifo α) : Option (α × Fifo α) :=
  match q.items with
  | [] => none
  | a :: rest => some (a, ⟨rest⟩)

/-- Takes exactly the `n` oldest items, or reports that there are not so many. -/
def popMany (q : Fifo α) (n : Nat) : Except Fault (List α × Fifo α) :=
  if n ≤ q.size then .ok (q.items.take n, ⟨q.items.drop n⟩)
  else .error (.overdraw n q.size)

@[simp] theorem size_empty : (empty : Fifo α).size = 0 := rfl

@[simp] theorem size_push (q : Fifo α) (a : α) : (q.push a).size = q.size + 1 := by
  simp [size, push]

@[simp] theorem size_pushMany (q : Fifo α) (as : List α) :
    (q.pushMany as).size = q.size + as.length := by
  simp [size, pushMany]

theorem isEmpty_iff_size (q : Fifo α) : q.isEmpty = true ↔ q.size = 0 := by
  simp [isEmpty, size]

/-- A queue that is asked for no more than it holds gives it. -/
theorem popMany_of_le {q : Fifo α} {n : Nat} (h : n ≤ q.size) :
    q.popMany n = .ok (q.items.take n, ⟨q.items.drop n⟩) := if_pos h

end Fifo

end MessageBus

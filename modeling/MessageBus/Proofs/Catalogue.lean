import MessageBus.Operation
import Mathlib.Data.Finset.Card
import Mathlib.Data.Finset.Max
import Mathlib.Data.Fintype.EquivFin

/-!
# Catalogues

What a bus is to those who never wait: a finite map from handles to bounded queues, and the number
of the next channel. A `Catalogue` knows no slots, no waiting lines and no tickets, and an operation
on it either does what it is asked or is refused and does nothing.

Here the operations that never suspend are given their meaning on catalogues
(`Catalogue.apply`). Waiting callers cannot be counted in a catalogue: there nobody ever waits.
-/

namespace MessageBus

/-- What is left of a channel if nobody can wait there. -/
structure Store where
  id : ChannelId
  capacity : Nat
  messages : List Message
deriving DecidableEq, Repr

namespace Store

/-- Whether no further message fits. -/
def isFull (s : Store) : Bool := s.capacity ≤ s.messages.length

/-- Adds messages at the end, in order. -/
def append (s : Store) (ms : List Message) : Store := { s with messages := s.messages ++ ms }

/-- Sends a message, unless the store is full. -/
def send? (m : Message) (s : Store) : Option (Value × Store) :=
  if s.isFull then none else some (.nothing, s.append [m])

/-- Sends the first of these messages, as many as fit, unless the store is full. -/
def sendMany? (ms : List Message) (s : Store) : Option (Value × Store) :=
  if s.isFull then none
  else
    let fitting := ms.take (s.capacity - s.messages.length)
    some (.number fitting.length, s.append fitting)

/-- Takes the oldest message, unless the store is empty. -/
def recv? (s : Store) : Option (Value × Store) :=
  match s.messages with
  | [] => none
  | m :: rest => some (.message m, { s with messages := rest })

/-- Takes the oldest messages, at most `limit` of them, unless the store is empty. -/
def recvMany? (limit : Nat) (s : Store) : Option (Value × Store) :=
  if s.messages = [] then none
  else
    some (.messages (s.messages.take limit), { s with messages := s.messages.drop limit })

end Store

/-- A partial map from handles to stores, defined at finitely many, and the number that the next
channel is given. -/
structure Catalogue where
  handles : Finset Handle
  store? : Handle → Option Store
  mem_handles (h : Handle) : h ∈ handles ↔ (store? h).isSome = true
  nextId : Nat

namespace Catalogue

/-- Catalogues are the same if they have the same stores and the same next number. -/
theorem ext_store? {g g' : Catalogue} (stores : ∀ h, g.store? h = g'.store? h)
    (next : g.nextId = g'.nextId) : g = g' := by
  obtain ⟨handles, store?, mem, nextId⟩ := g
  obtain ⟨handles', store?', mem', nextId'⟩ := g'
  obtain rfl : store? = store?' := funext stores
  obtain rfl : nextId = nextId' := next
  obtain rfl : handles = handles' := Finset.ext fun h => (mem h).trans (mem' h).symm
  rfl

/-- The least handle at which nothing is. -/
def freeHandle (g : Catalogue) : Handle := Nat.find (Infinite.exists_notMem_finset g.handles)

theorem freeHandle_eq_iff {g : Catalogue} {h : Handle} :
    g.freeHandle = h ↔ g.store? h = none ∧ ∀ k < h, g.store? k ≠ none := by
  rw [freeHandle, Nat.find_eq_iff, g.mem_handles, Bool.not_eq_true, Option.isSome_eq_false_iff,
    Option.isNone_iff_eq_none]
  refine and_congr_right fun _ => forall₂_congr fun k _ => ?_
  rw [not_not, g.mem_handles, Option.isSome_iff_ne_none]

/-- Puts a store under a handle. -/
def put (g : Catalogue) (h : Handle) (s : Store) : Catalogue where
  handles := insert h g.handles
  store? := Function.update g.store? h (some s)
  mem_handles k := by
    rw [Finset.mem_insert, g.mem_handles, Function.update_apply]
    split <;> simp_all
  nextId := g.nextId

theorem store?_put (g : Catalogue) (h : Handle) (s : Store) (h' : Handle) :
    (g.put h s).store? h' = if h' = h then some s else g.store? h' := Function.update_apply ..

/-- Putting back what is there changes nothing. -/
theorem put_of_store? {g : Catalogue} {h : Handle} {s : Store} (there : g.store? h = some s) :
    g.put h s = g := by
  refine ext_store? (fun h' => ?_) rfl
  rw [store?_put]
  split
  · subst h'
    exact there.symm
  · rfl

/-- Takes away what is under a handle, if anything is. -/
def erase (g : Catalogue) (h : Handle) : Catalogue where
  handles := g.handles.erase h
  store? := Function.update g.store? h none
  mem_handles k := by
    rw [Finset.mem_erase, g.mem_handles, Function.update_apply]
    split <;> simp_all
  nextId := g.nextId

theorem store?_erase (g : Catalogue) (h h' : Handle) :
    (g.erase h).store? h' = if h' = h then none else g.store? h' := Function.update_apply ..

/-- Takes away everything. -/
def clear (g : Catalogue) : Catalogue where
  handles := ∅
  store? _ := none
  mem_handles h := by simp
  nextId := g.nextId

/-- Adds a message to every store. -/
def appendAll (g : Catalogue) (m : Message) : Catalogue where
  handles := g.handles
  store? h := (g.store? h).map (·.append [m])
  mem_handles h := by rw [g.mem_handles, Option.isSome_map]
  nextId := g.nextId

/-- Looks at the store under a handle. -/
def look (g : Catalogue) (h : Handle) (value : Store → Value) : Reply :=
  match g.store? h with
  | none => .refused .noSuchChannel
  | some s => .granted (value s)

/-- Acts on the store under a handle. What cannot be done there would have to wait. -/
def onStore (g : Catalogue) (h : Handle) (act : Store → Option (Value × Store)) :
    Reply × Catalogue :=
  match g.store? h with
  | none => (.refused .noSuchChannel, g)
  | some s =>
    match act s with
    | none => (.refused .wouldBlock, g)
    | some (v, s') => (.granted v, g.put h s')

/-- Sends a message to every store, unless there is none or one of them is full. -/
def broadcast (g : Catalogue) (m : Message) : Reply × Catalogue :=
  if g.handles = ∅ then (.refused .noSuchChannel, g)
  else if ∃ h ∈ g.handles, (g.store? h).any (·.isFull) = true then (.refused .wouldBlock, g)
  else (.granted .nothing, g.appendAll m)

/-- Carries out an operation: the reply, and the catalogue afterwards. -/
def apply (g : Catalogue) : Operation → Reply × Catalogue
  | .openChannel bound =>
    (.plain (.number g.freeHandle),
      { g.put g.freeHandle ⟨⟨g.nextId⟩, bound, []⟩ with nextId := g.nextId + 1 })
  | .close h => (.plain .nothing, g.erase h)
  | .delete => (.plain .nothing, g.clear)
  | .isOpen h => (.plain (.flag (g.store? h).isSome), g)
  | .channelCount => (.plain (.number g.handles.card), g)
  | .size h => (g.look h (.number ·.messages.length), g)
  | .isEmpty h => (g.look h (.flag <| decide <| ·.messages = []), g)
  | .capacity h => (g.look h (.number ·.capacity), g)
  | .waiting _ h => (g.look h fun _ => .number 0, g)
  | .trySend h m => g.onStore h (Store.send? m)
  | .trySendMany h ms => g.onStore h (Store.sendMany? ms)
  | .tryRecv h => g.onStore h Store.recv?
  | .tryRecvMany h limit => g.onStore h (Store.recvMany? limit)
  | .tryBroadcast m => g.broadcast m

/-- Carries out operations, one after the other: the replies in order, and the catalogue at the
end. -/
def applyAll (g : Catalogue) : List Operation → List Reply × Catalogue
  | [] => ([], g)
  | op :: ops =>
    let later := (g.apply op).2.applyAll ops
    ((g.apply op).1 :: later.1, later.2)

end Catalogue

end MessageBus

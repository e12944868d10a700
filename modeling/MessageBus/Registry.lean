import MessageBus.Channel

/-!
# The registry of a bus

A bus keeps its channels in a row of slots. A handle is the index of a slot. Opening a channel
takes the first free slot, or a new one at the end; closing it frees the slot again.

`nextId` and `nextTicket` only ever grow: no identity and no ticket is given out twice, even after
every channel was deleted.
-/

namespace MessageBus

/-- The channels of one bus. -/
structure Registry (ω : Type) where
  slots : List (Option (Channel ω)) := []
  /-- How many channels were ever opened. -/
  nextId : Nat := 0
  /-- How many tickets were ever given out. -/
  nextTicket : Nat := 0
deriving Repr

namespace Registry

variable {ω : Type} {α : Type}

/-- The bus on which nothing was ever opened. -/
def empty : Registry ω := {}

/-- The channel that is open under a handle. -/
def channel? (r : Registry ω) (h : Handle) : Option (Channel ω) := r.slots[h]?.join

/-- The channel at an address: open under that handle, and still the same one. -/
def find? (r : Registry ω) (a : Address) : Option (Channel ω) :=
  (r.channel? a.handle).filter (·.id = a.id)

/-- Puts a channel into a slot. -/
def put (r : Registry ω) (h : Handle) (c : Channel ω) : Registry ω :=
  { r with slots := r.slots.set h (some c) }

/-- The open channels, by ascending handle. -/
def channels (r : Registry ω) : List (Channel ω) := r.slots.filterMap id

/-- The open channels with their handles, by ascending handle. -/
def entries (r : Registry ω) : List (Handle × Channel ω) :=
  r.slots.zipIdx.filterMap fun (slot, h) => slot.map (h, ·)

/-! ### Opening and closing -/

/-- Opens a channel in the first free slot, or in a new one. -/
def openChannel (r : Registry ω) (capacity : Nat) : Outcome (Registry ω) ω Handle :=
  let handle := r.slots.findIdx (·.isNone)
  let channel := some (Channel.fresh ⟨r.nextId⟩ capacity)
  { answer := handle
    state :=
      { r with
        slots := if handle < r.slots.length then r.slots.set handle channel
          else r.slots ++ [channel]
        nextId := r.nextId + 1 }
    notes := [.opened handle capacity] }

/-- Closes the channel under a handle, wakes everybody who waits there and drops its messages.
There need not be one. -/
def close (r : Registry ω) (h : Handle) : Outcome (Registry ω) ω Unit :=
  match r.channel? h with
  | none => { answer := (), state := r }
  | some c =>
    { answer := ()
      state := { r with slots := r.slots.set h none }
      woken := c.close
      notes := [.closed h c.close.length c.size] }

/-- Closes every channel, by ascending handle, and gives up all slots. -/
def delete (r : Registry ω) : Outcome (Registry ω) ω Unit :=
  let woken := r.channels.flatMap (·.close)
  { answer := ()
    state := { r with slots := [] }
    woken
    notes := [.deleted r.channels.length woken.length] }

/-! ### Looking -/

/-- Whether a handle names an open channel. -/
def isOpen (r : Registry ω) (h : Handle) : Bool := (r.channel? h).isSome

/-- How many channels are open. -/
def channelCount (r : Registry ω) : Nat := r.slots.countP (·.isSome)

/-- Looks at the channel under a handle. -/
def inspect (r : Registry ω) (h : Handle) (look : Channel ω → α) : Except BusError α :=
  match r.channel? h with
  | none => .error .noSuchChannel
  | some c => .ok (look c)

/-- The address of the channel that is open under a handle now. -/
def resolve (r : Registry ω) (h : Handle) : Except BusError Address :=
  r.inspect h fun c => ⟨h, c.id⟩

/-! ### Acting on one channel -/

/-- Acts on the channel under a handle. -/
def onChannel (r : Registry ω) (h : Handle)
    (act : Channel ω → Except Fault (Outcome (Channel ω) ω (Except BusError α))) :
    Except Fault (Outcome (Registry ω) ω (Except BusError α)) :=
  match r.channel? h with
  | none => .ok { answer := .error .noSuchChannel, state := r }
  | some c => (act c).map (·.within (r.put h))

/-- Acts on the channel at an address, if it is still there. -/
def onAddress (r : Registry ω) (a : Address)
    (act : Channel ω → Except Fault (Outcome (Channel ω) ω (Except BusError α))) :
    Except Fault (Outcome (Registry ω) ω (Except BusError α)) :=
  match r.find? a with
  | none => .ok { answer := .error .noSuchChannel, state := r }
  | some c => (act c).map (·.within (r.put a.handle))

@[simp] theorem channel?_empty (h : Handle) : (empty : Registry ω).channel? h = none := rfl

/-- What is found at an address is the channel under its handle. -/
theorem channel?_of_find? {r : Registry ω} {a : Address} {c : Channel ω}
    (h : r.find? a = some c) : r.channel? a.handle = some c ∧ c.id = a.id := by
  simpa [find?, Option.filter_eq_some_iff] using h

/-- The open channels are those that have an entry, in the same order. -/
theorem map_snd_entries (r : Registry ω) : r.entries.map (·.2) = r.channels := by
  have shifted (slots : List (Option (Channel ω))) (n : Nat) :
      ((slots.zipIdx n).filterMap fun (slot, h) => slot.map (h, ·)).map (·.2) =
        slots.filterMap id := by
    induction slots generalizing n with
    | nil => rfl
    | cons slot rest ih => cases slot <;> simp [List.zipIdx_cons, ih]
  exact shifted r.slots 0

end Registry

end MessageBus

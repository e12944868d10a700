import MessageBus.Outcome

/-!
# Telemetry

What observers of the buses are told is kept in two ways: events, each under the next number of one
sequence, and counters, which say how often something happened. A `Note` becomes at most one of the
two, and it may also be traced: a line of text with named fields, told as it happens and not kept.

Counters are kept in the order of their keys, so that a list of them needs no sorting. The order is
that of the characters' code points, the location first.
-/

namespace MessageBus

/-- Something that happened, with its number. -/
structure TelemetryEvent where
  sequence : Nat
  /-- The channel that it is about, if there is one. -/
  handle : Option Handle
  location : String
  kind : String
  message : Option String
deriving DecidableEq, Repr

/-- What a counter counts, and where. -/
structure CounterKey where
  location : String
  name : String
deriving DecidableEq, Repr

namespace CounterKey

/-- Whether a key comes before another. -/
def before (k l : CounterKey) : Bool :=
  k.location < l.location || (k.location = l.location && k.name < l.name)

/-- Channels that were opened. -/
def channelsOpened : CounterKey := ⟨"bus::open", "ChannelsOpened"⟩

/-- Calls that went to wait. -/
def parked : CounterKey := ⟨"bus::park", "Parked"⟩

/-- Calls that went on and found their channel gone. -/
def resumedOnClosed : CounterKey := ⟨"bus::park", "ResumedClosed"⟩

/-- Wakeups that were passed on by a dropped call. -/
def wakeupForwarded : CounterKey := ⟨"bus::park", "WakeupForwarded"⟩

/-- Broadcasts that lost the channel they waited for. -/
def blockerClosed : CounterKey := ⟨"bus::broadcast", "BlockerClosed"⟩

/-- The counters that a bus keeps. -/
def ofBus : List CounterKey :=
  [channelsOpened, parked, resumedOnClosed, wakeupForwarded, blockerClosed]

end CounterKey

/-- The events and counters collected so far. -/
structure Telemetry where
  events : List TelemetryEvent := []
  counters : List (CounterKey × Nat) := []
  /-- The number of the next event. -/
  nextSequence : Nat := 0
deriving Repr

namespace Telemetry

/-- Nothing was collected, and the sequence is at its start. -/
def empty : Telemetry := {}

/-- Keeps an event under the next number. -/
def log (t : Telemetry) (handle : Option Handle) (location kind : String)
    (message : Option String) : Telemetry :=
  { t with
    events := t.events ++ [⟨t.nextSequence, handle, location, kind, message⟩]
    nextSequence := t.nextSequence + 1 }

/-- Adds one to a counter in a list that is in order; a counter that is not there was at zero. -/
def bump (key : CounterKey) : List (CounterKey × Nat) → List (CounterKey × Nat)
  | [] => [(key, 1)]
  | (k, n) :: rest =>
    if k = key then (k, n + 1) :: rest
    else if key.before k then (key, 1) :: (k, n) :: rest
    else (k, n) :: bump key rest

/-- Adds one to a counter. -/
def increment (t : Telemetry) (key : CounterKey) : Telemetry :=
  { t with counters := bump key t.counters }

/-- How often something was counted. -/
def counter (t : Telemetry) (key : CounterKey) : Nat := (t.counters.lookup key).getD 0

/-- Keeps what there is to keep of a note. -/
def note (t : Telemetry) : Note → Telemetry
  | .opened _ _ => t.increment .channelsOpened
  | .closed h _ _ => t.log (some h) "bus::close" "ChannelClosed" none
  | .deleted _ _ => t.log none "bus::delete" "BusDeleted" none
  | .parked _ _ _ => t.increment .parked
  | .resumed _ _ _ => t
  | .resumedOnClosed _ _ => t.increment .resumedOnClosed
  | .wakeupForwarded => t.increment .wakeupForwarded
  | .blockerClosed => t.increment .blockerClosed

end Telemetry

/-- How much a traced line matters. -/
inductive TraceLevel where
  /-- Something happened to a channel or a bus. -/
  | debug
  /-- Something happened to one waiting call. -/
  | trace
deriving DecidableEq, Repr

/-- The name of a level. -/
def TraceLevel.name : TraceLevel → String
  | .debug => "DEBUG"
  | .trace => "TRACE"

/-- A line that is told as something happens. -/
structure Trace where
  level : TraceLevel
  text : String
  fields : List (String × String)
deriving DecidableEq, Repr

/-- What is traced of a note. -/
def Note.trace : Note → Option Trace
  | .opened h capacity =>
    some ⟨.debug, "channel opened", [("handle", toString h), ("capacity", toString capacity)]⟩
  | .closed h woken dropped =>
    some ⟨.debug, "channel closed",
      [("handle", toString h), ("woken", toString woken), ("dropped", toString dropped)]⟩
  | .deleted channels woken =>
    some ⟨.debug, "bus deleted", [("channels", toString channels), ("woken", toString woken)]⟩
  | .parked h side ticket => some ⟨.trace, "parked", stay h side ticket⟩
  | .resumed h side ticket => some ⟨.trace, "resumed", stay h side ticket⟩
  | .resumedOnClosed h ticket =>
    some ⟨.trace, "resumed on closed channel",
      [("handle", toString h), ("ticket", toString ticket.number)]⟩
  | .wakeupForwarded => none
  | .blockerClosed => none
where
  /-- The fields that tell of one stay in a line. -/
  stay (h : Handle) (side : Side) (ticket : Ticket) : List (String × String) :=
    [("handle", toString h), ("side", side.name), ("ticket", toString ticket.number)]

end MessageBus

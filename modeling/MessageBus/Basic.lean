/-!
# Messages, handles and identities

The nouns that every layer of the library shares. A channel is met under a *handle*, a small
number that is given out again once the channel is closed, and it has an *identity*, a number that
is never given out twice on one bus. The two are different types on purpose: a caller that
suspends keeps an `Address`, the handle together with the identity it saw there, and so cannot
mistake a later channel under the same handle for its own.
-/

namespace MessageBus

/-- What a channel carries: a 32-bit number. -/
abbrev Message := UInt32

/-- Where a channel is found in the registry of its bus. -/
abbrev Handle := Nat

/-- Which channel it is, for the lifetime of its bus. -/
structure ChannelId where
  number : Nat
deriving DecidableEq, Repr

/-- The name of one stay in a waiting line, for the lifetime of a bus. -/
structure Ticket where
  number : Nat
deriving DecidableEq, Repr

/-- The two reasons to wait on a channel, each with its own line. -/
inductive Side where
  /-- Waiting for a free slot. -/
  | senders
  /-- Waiting for a message. -/
  | receivers
deriving DecidableEq, Repr

/-- The name of a side. -/
def Side.name : Side → String
  | .senders => "Senders"
  | .receivers => "Receivers"

/-- A channel as a suspended caller remembers it. -/
structure Address where
  handle : Handle
  id : ChannelId
deriving DecidableEq, Repr

end MessageBus

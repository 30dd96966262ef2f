import PartyGraph.Graph.Basic

/-!
# Channels

Whoever wants to know of changes receives signals from a channel. All parties that appear and
disappear are told on one channel, the remote parties of an owner on one of its own, and heartbeats
on a third.

A channel keeps the latest signals only. A receiver that falls behind learns how many it missed and
goes on with the oldest that is kept.

## Main definitions

* `Signal`, `Channel`: what is told, and where.
* `Receiver`: who is told, with `Receiver.drain`.
-/

namespace PartyGraph

/-- A change of the parties in the graph. -/
inductive PartyEvent where
  | appeared (id : PartyId)
  | disappeared (id : PartyId)
deriving DecidableEq, Repr

/-- The party that a change is about. -/
def PartyEvent.party : PartyEvent → PartyId
  | appeared id => id
  | disappeared id => id

/-- What is told on a channel. -/
inductive Signal where
  | party (e : PartyEvent)
  | beat (count : Nat)
deriving DecidableEq, Repr

/-- The channels. -/
inductive Channel where
  | all
  | remotesOf (owner : PartyRef)
  | heartbeat
deriving DecidableEq, Repr

namespace Channel

/-- Number of signals that a channel keeps. -/
def capacity : Nat := 256

/-- Whether the channel belongs to the root, and ends with it. -/
def endsWithRoot : Channel → Bool
  | remotesOf (.owned _) => false
  | _ => true

end Channel

/-- A receiver: its channel, and the number of signals told there that it has left behind. -/
structure Receiver where
  channel : Channel
  position : Nat
deriving DecidableEq, Repr

namespace Receiver

/-- What a receiver learns at once. -/
structure News where
  /-- Number of signals that it missed. -/
  missed : Nat
  signals : List Signal
deriving DecidableEq, Repr

/-- Takes all that was told since, where `told` are the signals of the channel from its
beginning. -/
def drain (r : Receiver) (told : List Signal) : News × Receiver :=
  let unread := told.drop r.position
  let missed := unread.length - Channel.capacity
  (⟨missed, unread.drop missed⟩, { r with position := told.length })

end Receiver

end PartyGraph

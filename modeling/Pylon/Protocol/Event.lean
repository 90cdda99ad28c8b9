import Pylon.Channel.State
import Pylon.Redis.Scripts

/-!
# Commands, events and the connection mailbox

The protocol's domain types (`protocol/command.rs`, `protocol/event.rs`,
`protocol/codec.rs`) and the bounded mailbox through which a connection is sent
its events (`connection/handle.rs`). JSON values are an arbitrary type `Value`;
socket ids are texts.
-/

namespace Pylon.Protocol

open Pylon.Channel Pylon.Redis

/-- Inbound commands, decoded from any protocol version. -/
inductive ClientCommand (Value : Type) where
  | ping
  | subscribe (channel : String) (auth channelData : Option String)
  | unsubscribe (channel : String)
  | clientEvent (event channel : String) (data : Value)
  | signin (auth userData : String)
  | unknown (event : String)
  deriving DecidableEq

structure PusherError where
  code : Nat
  message : String
  deriving DecidableEq

structure WatchlistChange where
  name : String
  userIds : List String
  deriving DecidableEq

/-- Presence roster for `subscription_succeeded`. -/
structure PresencePayload (Value : Type) where
  ids : List String
  hash : List (String × Value)
  count : Nat
  deriving DecidableEq

/-- Outbound events. `raw` is the pre-encoded roster acknowledgement, kept as the
event it encodes. -/
inductive ServerEvent (Value : Type) where
  | connectionEstablished (socketId : Text) (activityTimeout : Nat)
  | ping
  | pong
  | subscriptionSucceeded (channel : String) (presence : Option (PresencePayload Value))
  | subscriptionCount (channel : String) (count : Nat)
  | error (e : PusherError)
  | channelEvent (channel event : String) (data : Value) (userId : Option String)
  | subscriptionError (channel errorType error : String) (status : Nat)
  | memberAdded (channel userId : String) (userInfo : Value)
  | memberRemoved (channel userId : String)
  | cacheMiss (channel : String)
  | signinSuccess (userData : String)
  | watchlistEvents (events : List WatchlistChange)
  | clientEventError (code : Nat) (message : String)
  | close (code : Nat) (reason : String)
  | raw (frame : RosterFrame Value)
  deriving DecidableEq

/-- What a negotiated protocol version supports. -/
structure Capabilities where
  clientEvents : Bool
  presence : Bool
  encryptedChannels : Bool
  cacheChannels : Bool
  userAuth : Bool
  watchlist : Bool
  deriving DecidableEq

namespace ServerEvent

variable {Value : Type}

/-- The channel a `subscription_error` names. -/
def refusedChannel : ServerEvent Value → Option String
  | .subscriptionError channel _ _ _ => some channel
  | _ => none

def isClose : ServerEvent Value → Bool
  | .close .. => true
  | _ => false

end ServerEvent

/-! ## The mailbox -/

/-- A bounded channel of events, oldest first. -/
structure Mailbox (Value : Type) where
  capacity : Nat
  events : List (ServerEvent Value)
  bounded : events.length ≤ capacity

namespace Mailbox

variable {Value : Type}

def new (capacity : Nat) : Mailbox Value := ⟨capacity, [], Nat.zero_le _⟩

/-- The receiver took the oldest event. -/
def pop (m : Mailbox Value) : Mailbox Value :=
  { m with
    events := m.events.tail
    bounded := by
      rw [List.length_tail]
      exact Nat.le_trans (Nat.sub_le _ _) m.bounded }

def hasRoom (m : Mailbox Value) : Bool := m.events.length < m.capacity

/-- `try_send`; a full mailbox drops the event. -/
def trySend (m : Mailbox Value) (event : ServerEvent Value) : Mailbox Value :=
  if h : m.events.length < m.capacity then
    { m with events := m.events ++ [event], bounded := by rw [List.length_append]; exact h }
  else m

theorem trySend_events (m : Mailbox Value) (event : ServerEvent Value) :
    (m.trySend event).events = if m.hasRoom then m.events ++ [event] else m.events := by
  unfold trySend hasRoom
  split <;> simp_all

theorem mem_trySend {m : Mailbox Value} {event : ServerEvent Value} (h : event ∈ m.events)
    (event' : ServerEvent Value) : event ∈ (m.trySend event').events := by
  rw [trySend_events]
  split
  · exact List.mem_append_left [event'] h
  · exact h

end Mailbox

end Pylon.Protocol

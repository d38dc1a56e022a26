import LibAdb.Objects.Install

inductive EventType where
  | deviceConnecting
  | deviceConnected
  | deviceAuthRequired
  | deviceUnauthorized
  | deviceDisconnected
  | deviceLost
  | slotWaiting
  | slotAcquired
  | slotTimeout
  | operationStarted
  | operationPhaseChanged
  | operationProgress
  | operationHeartbeat
  | operationRetry
  | operationOutput
  | operationFinished
  | operationTimeout
  | operationCanceled
  | operationFailed
  | operationStats
  | clientShutdown
  | internalError
  deriving DecidableEq, Repr

namespace EventType

-- `event_bit`: the bits of a mask are in the order of the types.
def bit (type : EventType) : UInt64 :=
  1 <<< UInt64.ofNat type.ctorIdx

def isIn (mask : UInt64) (type : EventType) : Bool :=
  mask &&& type.bit != 0

def droppable : EventType → Bool
  | .operationProgress | .operationHeartbeat => true
  | _ => false

end EventType

-- The operation is 0 in an event that belongs to none.
structure Event where
  type       : EventType
  serial     : Bytes := []
  op         : Nat := 0
  phase      : Phase := .none
  status     : Status := .ok
  remoteCode : Bytes := []
  bytesDone  : Nat := 0
  message    : Bytes := []
  deriving DecidableEq, Repr

-- An event that `publish` has accepted, with its place in the order in which it did.
structure Posted where
  number : Nat
  event  : Event
  deriving DecidableEq, Repr

def Posted.droppable (p : Posted) : Bool :=
  p.event.type.droppable

-- A subscriber whose handler is callable; `subscribe` takes no other.
structure Subscriber where
  id   : Nat
  mask : UInt64
  deriving DecidableEq, Repr

-- What a thread does next. A step goes from one lock of the bus to the next, and the handler of a
-- subscriber runs between two steps.
inductive BusStep where
  -- `publish`: the look at the mask, and what is done under the lock.
  | publish (event : Event)
  | enqueue (event : Event)
  | start
  | stop
  | join (dispatcher : Nat)
  | subscribe (mask : UInt64) (primary : Bool)
  | unsubscribe (id : Nat)
  -- `set_primary_subscription`, with the mask if there is a handler.
  | replacePrimary (handler : Option UInt64)
  | setPrimary (id : Nat)
  | setQueueLimit (limit : Nat)
  | drain
  -- The end of `Client::initialize`, which needs the keys to be loaded.
  | initialise (loaded : Bool)
  | shutdown
  -- `dispatch_loop`: the wait for an event, and its handlers one by one.
  | wait
  | handle (posted : Posted) (subscriber : Subscriber)
  | handling (posted : Posted) (subscriber : Subscriber)
  | finish
  deriving DecidableEq, Repr

-- The calls of the public interface, and the publications of the rest of the library.
inductive BusCall where
  | publish (event : Event)
  | start
  | stop
  | subscribe (handler : Option UInt64)
  | unsubscribe (id : Nat)
  | setQueueLimit (limit : Nat)
  | initialise (limit : Nat) (handler : Option UInt64) (loaded : Bool)
  | shutdown
  deriving DecidableEq, Repr

-- The bus with the threads that use it, each as the list of its next steps: `dispatchers` has all
-- threads that were ever started, and `dispatcher` is the one that the bus holds. `initialized` is
-- the flag of the client. What became of the accepted events is in `dispatched` and `dropped`, and
-- `delivered` has the calls of the handlers, as the subscriber and the number of the event.
structure EventBus where
  running        : Bool := false
  dispatching    : Bool := false
  queue          : List Posted := []
  queueLimit     : Nat := 10000
  subscribers    : List Subscriber := []
  nextId         : Nat := 1
  primaryId      : Nat := 0
  combinedMask   : UInt64 := 0
  droppedTotal   : Nat := 0
  droppedPending : Nat := 0
  dispatcher     : Option Nat := none
  initialized    : Bool := false
  dispatchers    : List (List BusStep) := []
  calls          : List (List BusStep) := []
  accepted       : List Event := []
  dispatched     : List Posted := []
  dropped        : List Posted := []
  delivered      : List (Nat × Nat) := []
  deriving DecidableEq, Repr

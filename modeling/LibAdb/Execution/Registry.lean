import LibAdb.Library.Reach
import Mathlib.Logic.Function.Basic

-- The lists of transports (`pending_list`, `transport_list`), with the threads that register and kick
-- transports, the looper that registers, loses and removes them, and the `ReconnectHandler`.

-- `id` numbers the objects in the order they are made in. An address may be used again.
structure RegistryTransport where
  id     : Nat
  serial : String
  socket : Bool
  kicked : Bool := false
  deriving DecidableEq, Repr

-- `loss` numbers the calls of `TrackTransport` that have put a transport into the queue.
structure ReconnectAttempt where
  transport    : Nat
  attemptsLeft : Nat
  loss         : Nat
  deriving DecidableEq, Repr

inductive ReconnectResult where
  | retry
  | success
  | abort
  deriving DecidableEq, Repr

-- Where the thread of the handler stands. It holds `reconnect_mutex_` from the scan of the queue for
-- kicked transports until it has taken an attempt.
inductive HandlerPoint where
  | waiting
  | scan (n : Nat)
  | scanned
  | attempt (a : ReconnectAttempt)
  | returned
  deriving DecidableEq, Repr

-- What is queued for the looper: `fdevent_register_transport`, the function of `HandleError` and
-- `fdevent_unregister_transport`.
inductive RegistryTask where
  | register (t : Nat)
  | destroy (t : Nat)
  | remove (t : Nat)
  deriving DecidableEq, Repr

def RegistryTask.transport : RegistryTask → Nat
  | register t | destroy t | remove t => t

-- `calls` are the transports whose registration has left the lock and has not queued its task yet,
-- `live` those with a connection that was started and has not reported an error. `handler` is
-- `handler_thread_` while it is joinable, and `stopping` says that the looper is in `Stop`. The fields
-- from `created` on only record: the removals by the object, the attempts by the loss, and the
-- transports the handler has registered with whether they were kicked.
structure Registry where
  heap          : Nat → Option RegistryTransport := fun _ => none
  pendingList   : List Nat := []
  transportList : List Nat := []
  calls         : List Nat := []
  tasks         : List RegistryTask := []
  live          : List Nat := []
  running       : Bool := true
  handler       : Option HandlerPoint := none
  stopping      : Bool := false
  queue         : List ReconnectAttempt := []
  aborted       : Bool := false
  created       : Nat := 0
  losses        : Nat := 0
  removed       : List Nat := []
  attempts      : List Nat := []
  registered    : List (Nat × Bool) := []

namespace Registry

def maxAttempts : Nat := 20

def isKicked (s : Registry) (t : Nat) : Bool :=
  (s.heap t).any (·.kicked)

def isSocket (s : Registry) (t : Nat) : Bool :=
  (s.heap t).any (·.socket)

-- Whether no transport of the list has the serial.
def validateTransportList (s : Registry) (list : List Nat) (serial : String) : Bool :=
  list.all fun t => (s.heap t).all (·.serial ≠ serial)

def addTransport (s : Registry) (t : Nat) (serial : String) (socket : Bool) : Registry :=
  { s with
    heap        := Function.update s.heap t (some { id := s.created, serial, socket })
    pendingList := t :: s.pendingList
    calls       := t :: s.calls
    created     := s.created + 1 }

-- The new object gets an address that is free. It is deleted again when its serial is taken.
def registerSocketTransport (s : Registry) (t : Nat) (serial : String) : Option Registry :=
  if (s.heap t).isSome then none
  else if s.validateTransportList s.pendingList serial
      && s.validateTransportList s.transportList serial then
    some (s.addTransport t serial true)
  else some s

def registerUsbTransport (s : Registry) (t : Nat) (serial : String) : Option Registry :=
  if (s.heap t).isSome then none else some (s.addTransport t serial false)

-- The end of both, `register_transport`.
def registerTransport (s : Registry) (t : Nat) : Option Registry :=
  if s.calls.contains t then
    some { s with calls := s.calls.erase t, tasks := s.tasks ++ [.register t] }
  else none

-- `kick_transport`, and the thread of a TLS handshake that has failed. The connection is stopped and
-- may report an error from then on.
def kick (s : Registry) (t : Nat) : Option Registry :=
  (s.heap t).map fun x => { s with heap := Function.update s.heap t (some { x with kicked := true }) }

-- A connection reports its error once.
def handleError (s : Registry) (t : Nat) : Option Registry :=
  if s.live.contains t then
    some { s with live := s.live.erase t, tasks := s.tasks ++ [.destroy t] }
  else none

def removeTransport (s : Registry) (t : Nat) : Registry :=
  { s with
    tasks   := s.tasks ++ [.remove t]
    removed := s.removed ++ ((s.heap t).map (·.id)).toList }

def isLocked (s : Registry) : Bool :=
  match s.handler with
  | some (.scan _) | some .scanned => true
  | _ => false

-- The queue is ordered by the times of the attempts, which say where a new one comes to stand.
def insertAttempt (s : Registry) (a : ReconnectAttempt) (place : Nat) : Registry :=
  { s with queue := s.queue.take place ++ a :: s.queue.drop place }

def trackTransport (s : Registry) (t place : Nat) : Option Registry :=
  if s.isLocked then none
  else if s.running then
    some { s.insertAttempt { transport := t, attemptsLeft := maxAttempts, loss := s.losses } place with
      losses := s.losses + 1 }
  else some s

def fdeventRegisterTransport (s : Registry) (t : Nat) : Registry :=
  let s := { s with live := t :: s.live }
  if s.pendingList.contains t then
    { s with
      pendingList   := s.pendingList.filter (· ≠ t)
      transportList := t :: s.transportList }
  else s

def transportDestroy (s : Registry) (t place : Nat) : Option Registry :=
  if s.isSocket t && !s.isKicked t then s.trackTransport t place else some (s.removeTransport t)

def fdeventUnregisterTransport (s : Registry) (t : Nat) : Registry :=
  { s with
    transportList := s.transportList.filter (· ≠ t)
    heap          := Function.update s.heap t none }

def loop (s : Registry) (place : Nat) : Option Registry :=
  if s.stopping then none
  else match s.tasks with
    | [] => none
    | .register t :: tasks => some ({ s with tasks }.fdeventRegisterTransport t)
    | .destroy t :: tasks => { s with tasks }.transportDestroy t place
    | .remove t :: tasks => some ({ s with tasks }.fdeventUnregisterTransport t)

-- A USB transport without permissions leaves the list.
def unregisterUsbTransport (s : Registry) (t : Nat) : Option Registry :=
  if s.isSocket t then none else some { s with transportList := s.transportList.filter (· ≠ t) }

-- `ReconnectHandler::Start`. Assigning to a thread that is joinable ends the process.
def start (s : Registry) : Option Registry :=
  if s.stopping then none
  else if s.handler.isSome then some { s with aborted := true }
  else some { s with handler := some .waiting }

-- `ReconnectHandler::Stop` up to the join, which needs a thread.
def stop (s : Registry) : Option Registry :=
  if s.stopping || s.isLocked then none
  else if s.handler.isSome then some { s with running := false, stopping := true }
  else some { s with aborted := true }

-- The rest of it. The queue is drained when the thread has returned.
def drain (s : Registry) : Option Registry :=
  if !s.stopping then none
  else match s.handler, s.queue with
    | some .returned, _ => some { s with handler := none }
    | some _, _ => none
    | none, a :: queue => some ({ s with queue }.removeTransport a.transport)
    | none, [] => some { s with stopping := false }

-- What `Run` does with the outcome of an attempt.
def conclude (s : Registry) (a : ReconnectAttempt) (place : Nat) : ReconnectResult → Registry
  | .retry =>
    if a.attemptsLeft = 0 then s.removeTransport a.transport
    else s.insertAttempt { a with attemptsLeft := a.attemptsLeft - 1 } place
  | .success =>
    { s with
      tasks      := s.tasks ++ [.register a.transport]
      registered := s.registered ++ ((s.heap a.transport).map fun x => (x.id, x.kicked)).toList }
  | .abort => s.removeTransport a.transport

-- The next step of the thread. `due` is whether the time of the first attempt has come.
def handle (s : Registry) (due : Bool) (result : ReconnectResult) (place : Nat) : Option Registry :=
  match s.handler with
  | some .waiting => some { s with handler := some (if s.running then .scan 0 else .returned) }
  | some (.scan n) =>
    match s.queue[n]? with
    | some a =>
      if s.isKicked a.transport then
        some ({ s with queue := s.queue.eraseIdx n }.removeTransport a.transport)
      else some { s with handler := some (.scan (n + 1)) }
    | none => some { s with handler := some .scanned }
  | some .scanned =>
    match s.queue with
    | [] => some { s with handler := some .waiting }
    | a :: queue =>
      if due then
        some { s with handler := some (.attempt a), queue, attempts := s.attempts ++ [a.loss] }
      else some { s with handler := some .waiting }
  | some (.attempt a) => some ({ s with handler := some .waiting }.conclude a place result)
  | some .returned => none
  | none => none

inductive Action where
  | registerSocketTransport (t : Nat) (serial : String)
  | registerUsbTransport (t : Nat) (serial : String)
  | registerTransport (t : Nat)
  | unregisterUsbTransport (t : Nat)
  | kick (t : Nat)
  | handleError (t : Nat)
  | loop (place : Nat)
  | start
  | stop
  | drain
  | handle (due : Bool) (result : ReconnectResult) (place : Nat)
  deriving DecidableEq, Repr

def step (s : Registry) : Action → Option Registry
  | .registerSocketTransport t serial => s.registerSocketTransport t serial
  | .registerUsbTransport t serial => s.registerUsbTransport t serial
  | .registerTransport t => s.registerTransport t
  | .unregisterUsbTransport t => s.unregisterUsbTransport t
  | .kick t => s.kick t
  | .handleError t => s.handleError t
  | .loop place => s.loop place
  | .start => s.start
  | .stop => s.stop
  | .drain => s.drain
  | .handle due result place => s.handle due result place

def next (s : Registry) (a : Action) : Option Registry :=
  if s.aborted then none else s.step a

def Runs (P : Registry → Action → Prop) : Registry → Registry → Prop :=
  Reach (fun s a s' => s.next a = some s') P

def Reachable (P : Registry → Action → Prop) (s : Registry) : Prop :=
  Runs P {} s

end Registry

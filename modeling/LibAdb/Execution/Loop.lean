import LibAdb.Execution.HandlePacket
import LibAdb.Library.Reach

-- The events that `epoll_wait` reports for an fd. `hup` stands for `EPOLLERR`, `EPOLLHUP` and
-- `EPOLLRDHUP`, which are reported whether they were asked for or not.
structure EpollEvents where
  input  : Bool := false
  output : Bool := false
  hup    : Bool := false
  deriving DecidableEq, Repr

namespace EpollEvents

-- A hang-up is turned into a read event, even for an fd whose read events are switched off.
def toFdEvents (e : EpollEvents) : FdEvents where
  read  := e.input || e.hup
  write := e.output
  error := e.hup

end EpollEvents

namespace Looper

-- `enqueue` of any socket.
def enqueue (s : Looper) (p : Ref) (data : Bytes) (os : Os) : Looper × EnqueueResult :=
  match s.sock p with
  | none => (s, .error)
  | some d =>
    match d.ops with
    | .localSocket | .localNotify => s.localSocketEnqueue p data os.writev
    | .remoteSocket => s.remoteSocketEnqueue p data
    | .smartSocket => s.smartSocketEnqueue p data os
    | .deviceTracker => (s.close p, .error)

-- After the peer took the data but asked to wait, read events are switched off unless there is
-- credit left.
def pauseReading (s : Looper) (r : Ref) : Looper :=
  match s.sock r with
  | none => s
  | some c =>
    if c.availableSendBytes.all (· ≤ 0) then s.put r { c with fdeRead := false } else s

-- Hands what was read to the peer; the second component is false if the socket was closed by that.
def relay (s : Looper) (r p : Ref) (c : ASocket) (data : Bytes) (os : Os) : Looper × Bool :=
  let s := s.put r { c with availableSendBytes := c.availableSendBytes.map (· - data.length) }
  match s.enqueue p data os with
  | (s, .error)    => (s, false)
  | (s, .accepted) => (s, true)
  | (s, .full)     => (s.pauseReading r, true)

def localSocketFlushOutgoing (s : Looper) (r : Ref) (os : Os) : Looper :=
  match s.sock r with
  | none => s
  | some c =>
    let (data, isEof) := readLoop os.reads (s.getMaxPayload c)
    let s := if data = [] then s else s.emit [.read r data]
    let (s, stillOpen) :=
      match c.peer with
      | some p => if data = [] then (s, true) else s.relay r p c data os
      | none   => (s, true)
    if stillOpen && isEof then s.close r else s

def localSocketEventFunc (s : Looper) (r : Ref) (ev : FdEvents) (os : Os) : Looper :=
  let (s, result) :=
    if ev.write then s.localSocketFlushIncoming r os.writev else (s, .completed)
  if ev.read && result ≠ .destroyed then s.localSocketFlushOutgoing r os else s

end Looper

inductive Looper.Action where
  -- A packet from the device that the looper handles.
  | packet (t : Tid) (p : ReceivedPacket) (os : Os)
  -- `epoll_wait` returns, and the events of one fd are handled.
  | poll (events : List (Ref × EpollEvents))
  | dispatch (os : Os)
  -- The host opens a service of the device.
  | openService (t : Tid) (service : Bytes)
  -- A client connects to the smart socket listener.
  | accept
  -- The connection of the transport has failed, or was stopped because the transport was kicked.
  | handleError (t : Tid) (kicked : Bool)
  | tlsHandshake (t : Tid)
  -- The list of transports has changed.
  | updateTracker (r : Ref) (os : Os)
  | setDelayedAckBytes (w : UInt64)
  | setKeys (keys : List Key)

namespace Looper

-- The kernel reports an event that was not asked for only if it is a hang-up.
def canReport (s : Looper) (r : Ref) (e : EpollEvents) : Bool :=
  (s.sock r).any fun c => c.ops.isLocal && (!e.input || c.fdeRead) && (!e.output || c.fdeWrite)

def handleEvent (s : Looper) (os : Os) : Option Looper :=
  match s.ready with
  | [] => none
  | (r, ev) :: ready => some (({ s with ready } : Looper).localSocketEventFunc r ev os)

-- `AdbSession::start` on the looper: a socket that is bound to the transport asks for the service.
def openService (s : Looper) (t : Tid) (service : Bytes) : Looper :=
  let (s, r) := s.createLocalSocket (some t)
  s.connectToRemote r service

def acceptClient (s : Looper) : Looper :=
  let (s, r) := s.createLocalSocket none
  s.connectToSmartsocket r

-- A transport whose connection is lost forgets its keys before it is connected again. If it was kicked,
-- it is not.
def handleError (s : Looper) (t : Tid) (kicked : Bool) : Looper :=
  let s := s.handleOffline t
  if kicked then s else s.setTransport t { s.transports t with keys := [] }

-- The tasks that were posted to the looper, packets among them, run after all events of an
-- `epoll_wait` were handled. A service can also be opened by an event, the one of a listener.
def step (s : Looper) : Action → Option Looper
  | .packet t p os          => if s.ready = [] then some (s.handlePacket t p.toApacket os) else none
  | .poll events            =>
    if s.ready = [] ∧ (events.map (·.1)).Nodup ∧ events.all fun e => s.canReport e.1 e.2 then
      some { s with ready := events.map fun e => (e.1, e.2.toFdEvents) }
    else none
  | .dispatch os            => s.handleEvent os
  | .openService t service  => some (s.openService t service)
  | .accept                 => some s.acceptClient
  | .handleError t kicked   => if s.ready = [] then some (s.handleError t kicked) else none
  | .tlsHandshake t         =>
    if 0 < (s.transports t).handshakes then some (s.tlsHandshake t) else none
  | .updateTracker r os     =>
    if (s.sock r).any (·.ops == .deviceTracker) then some (s.deviceTrackerSend r os) else none
  | .setDelayedAckBytes w   => some { s with delayedAckBytes := max w (64 * 1024) }
  | .setKeys keys           => some { s with keys }

-- Nothing happens any more once the process has ended.
def next (s : Looper) (a : Action) : Option Looper :=
  if s.aborted.isSome then none else s.step a

-- The states that the looper gets to by steps that meet the condition `P`.
def Runs (P : Looper → Action → Prop) : Looper → Looper → Prop :=
  Reach (fun s a s' => s.next a = some s') P

def Reachable (P : Looper → Action → Prop) (s : Looper) : Prop :=
  Runs P {} s

end Looper

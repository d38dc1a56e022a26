import LibAdb.Objects.Looper

-- The process around the looper: the registry of the transports with their connections, the tasks
-- that wait for the looper, the listeners of port forwardings and the devices of the library.

-- A transport in the registry with the `BlockingConnectionAdapter` of its connection.
structure Link where
  serial  : Bytes
  kicked  : Bool := false
  started : Bool := false
  stopped : Bool := false
  -- The `error_flag_` of the connection: its error has been reported.
  failed  : Bool := false
  deriving DecidableEq, Repr

-- The threads of the connection run.
def Link.running (l : Link) : Bool :=
  l.started && !l.stopped

-- A listener by its identity, which its `adisconnect` holds as well.
structure AListener where
  id        : Nat
  localName : Bytes
  connectTo : Bytes
  transport : Option Tid
  deriving DecidableEq, Repr

namespace AListener

def isSmartSocket (l : AListener) : Bool :=
  l.connectTo == ascii "*smartsocket*"

end AListener

-- What other threads, or the looper itself, have posted to the looper.
inductive LooperTask where
  | registerTransport (t : Tid)
  | handlePacket (t : Tid) (p : ReceivedPacket)
  | handleError (t : Tid)
  | unregisterTransport (t : Tid)
  | startSession (t : Tid) (service : Bytes)

-- The thread of `AdbDevice::initiateConnection`: it connects the socket, waits for the answer of the
-- device and reports to the listener.
inductive ConnectThread where
  | connecting
  | waiting (serial : Bytes) (t : Tid)
  | finished
  deriving DecidableEq, Repr

structure FacadeListener where
  serial       : Bytes
  online       : Bool := false
  failed       : Bool := false
  authRequired : Bool := false
  deriving DecidableEq, Repr

namespace FacadeListener

def onConnectionStateChanged (l : FacadeListener) (serial : Bytes) (state : ConnectionState) :
    FacadeListener :=
  let l := if serial = [] then l else { l with serial }
  match state with
  | .device              => { l with online := true, authRequired := false }
  | .unauthorized        => { l with authRequired := true }
  | .noPerm              => { l with failed := true }
  | .offline | .detached => if l.online then { l with online := false, failed := true } else l
  | _                    => l

def onError (l : FacadeListener) : FacadeListener :=
  { l with failed := true }

end FacadeListener

-- The answers of `Client::connect` once it has begun to connect.
inductive ConnectStatus where
  | ok
  | authRequired
  | connectFailed
  | connectTimeout
  deriving DecidableEq, Repr

-- A `Device::Impl` with its `AdbDevice` and the listener, which is detached when they are closed.
-- `status` is what `Client::connect` has returned.
structure Device where
  addressKey : Bytes
  serial     : Bytes
  thread     : ConnectThread := .connecting
  listener   : FacadeListener
  closed     : Bool := false
  status     : Option ConnectStatus := none
  deriving DecidableEq, Repr

-- The waitable of a transport, which holds whether it got connected, outlives the transport.
structure Server where
  looper        : Looper := {}
  links         : Store Link := .empty
  established   : Tid → Option Bool := fun _ => none
  pendingList   : List Tid := []
  transportList : List Tid := []
  tasks         : List LooperTask := []
  -- The sessions that have looked up their transport but not posted their task yet.
  starting      : List (Tid × Bytes) := []
  listeners     : List AListener := []
  nextListener  : Nat := 0
  disconnects   : Tid → List Nat := fun _ => []
  devices       : List Device := []

namespace Server

def link (v : Server) (t : Tid) : Option Link :=
  v.links.get t

def modifyLink (v : Server) (t : Tid) (f : Link → Link) : Server :=
  { v with links := v.links.modify t f }

def post (v : Server) (task : LooperTask) : Server :=
  { v with tasks := v.tasks ++ [task] }

def hasSerial (v : Server) (serial : Bytes) (t : Tid) : Bool :=
  (v.link t).any (·.serial == serial)

-- A transport in one of the two lists has the serial.
def registered (v : Server) (serial : Bytes) : Bool :=
  (v.pendingList ++ v.transportList).any (v.hasSerial serial)

def findTransport (v : Server) (serial : Bytes) : Option Tid :=
  v.transportList.find? (v.hasSerial serial)

def setDisconnects (v : Server) (t : Tid) (ids : List Nat) : Server :=
  { v with disconnects := fun u => if u = t then ids else v.disconnects u }

-- Only the first result counts.
def setConnectionEstablished (v : Server) (t : Tid) (success : Bool) : Server :=
  { v with
    established := fun u =>
      if u = t then (v.established t).or (some success) else v.established u }

def modifyDevice (v : Server) (i : Nat) (f : Device → Device) : Server :=
  { v with devices := v.devices.modify i f }

end Server

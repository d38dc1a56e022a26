import LibAdb.Execution.Loop
import LibAdb.Objects.Server

namespace Server

-- The error of a connection is reported once.
def reportError (v : Server) (t : Tid) : Server :=
  if (v.link t).any (!·.failed) then
    (v.modifyLink t ({ · with failed := true })).post (.handleError t)
  else v

-- `BlockingConnectionAdapter::Stop`. The threads of the connection have ended when it returns.
def stop (v : Server) (t : Tid) : Server :=
  if (v.link t).any (·.running) then (v.modifyLink t ({ · with stopped := true })).reportError t
  else v

-- `Reset` differs from `Kick` only for USB.
def kick (v : Server) (t : Tid) : Server :=
  if (v.link t).any (!·.kicked) then (v.modifyLink t ({ · with kicked := true })).stop t else v

def kickTransport (v : Server) (t : Tid) : Server :=
  if t ∈ v.transportList then v.kick t else v

-- The transport that is registered under the serial, if there is one, is kicked.
def kickFound (v : Server) (serial : Bytes) : Server :=
  match v.findTransport serial with
  | none   => v
  | some t => v.kickTransport t

-- The new transport, unless there is one with the serial already.
def registerSocketTransport (v : Server) (serial : Bytes) : Server × Option Tid :=
  if v.registered serial then (v, none)
  else
    let t := v.links.next
    let v := { v with links := v.links.alloc { serial }, pendingList := t :: v.pendingList }
    (v.post (.registerTransport t), some t)

def registerTransport (v : Server) (t : Tid) : Server :=
  let v := v.modifyLink t ({ · with started := true })
  if t ∈ v.pendingList then
    { v with
      pendingList   := v.pendingList.filter (· != t)
      transportList := t :: v.transportList }
  else v

def unregisterTransport (v : Server) (t : Tid) : Server :=
  let v := { v with
    transportList := v.transportList.filter (· != t)
    links         := v.links.free t }
  v.setConnectionEstablished t false

def listenerDisconnect (v : Server) (id : Nat) : Server :=
  { v with listeners := v.listeners.filter (·.id != id) }

def runDisconnects (v : Server) (t : Tid) : Server :=
  ((v.disconnects t).foldl listenerDisconnect v).setDisconnects t []

def handleOffline (v : Server) (t : Tid) : Server :=
  if (v.looper.transports t).connectionState = .offline then v
  else ({ v with looper := v.looper.handleOffline t } : Server).runDisconnects t

-- A transport that was not kicked stays in the list to be connected again, which the library does not
-- do.
def transportDestroy (v : Server) (t : Tid) : Server :=
  let v := v.stop t
  if (v.link t).any (·.kicked) then v.post (.unregisterTransport t)
  else { v with looper := v.looper.setTransport t { v.looper.transports t with keys := [] } }

def handleError (v : Server) (t : Tid) : Server :=
  (v.handleOffline t).transportDestroy t

def handleNewConnection (v : Server) (t : Tid) (p : Apacket) : Server :=
  let v := v.handleOffline t
  let tr := ((v.looper.transports t).updateVersion p.arg0 p.arg1).parseBanner p.payload
  let v := { v with looper := v.looper.setTransport t { tr with online := true } }
  v.setConnectionEstablished t true

-- When the device has refused the last key, the waiting thread is told.
def handleAuth (v : Server) (t : Tid) (p : Apacket) (os : Os) : Server :=
  let tr := v.looper.transports t
  if tr.useTls then v
  else if p.arg0 = adbAuthToken then
    let v' := { v with looper := v.looper.handleAuth t p os }
    if (tr.nextKey v.looper.keys).key.isNone then v'.setConnectionEstablished t true else v'
  else
    let v := { v with looper := v.looper.setTransport t { tr with connectionState := .offline } }
    v.handleOffline t

def handlePacket (v : Server) (t : Tid) (p : ReceivedPacket) (os : Os) : Server :=
  match p.kind with
  | some .cnxn => v.handleNewConnection t p.toApacket
  | some .auth => v.handleAuth t p.toApacket os
  | _          => { v with looper := v.looper.handlePacket t p.toApacket os }

def runTask (v : Server) (os : Os) : LooperTask → Server
  | .registerTransport t    => v.registerTransport t
  | .handlePacket t p       => v.handlePacket t p os
  | .handleError t          => v.handleError t
  | .unregisterTransport t  => v.unregisterTransport t
  | .startSession t service => { v with looper := v.looper.openService t service }

-- Erasing a listener takes its callback off the transport.
def eraseListener (v : Server) (l : AListener) : Server :=
  let v := { v with listeners := v.listeners.filter (·.id != l.id) }
  match l.transport with
  | none   => v
  | some t => v.setDisconnects t ((v.disconnects t).filter (· != l.id))

def rebindListener (v : Server) (l : AListener) (connectTo : Bytes) (t : Tid) : Server :=
  let v := { v with
    listeners := v.listeners.map fun k =>
      if k.id = l.id then { k with connectTo, transport := some t } else k }
  if l.transport = some t then v
  else
    let v :=
      match l.transport with
      | none   => v
      | some u => v.setDisconnects u ((v.disconnects u).filter (· != l.id))
    v.setDisconnects t (v.disconnects t ++ [l.id])

-- `bound` is the name that the listener is bound to, if `socket_spec_listen` succeeds.
def installListener (v : Server) (localName connectTo : Bytes) (t : Tid) (noRebind : Bool)
    (bound : Option Bytes) : Server :=
  match v.listeners.find? (·.localName == localName), bound with
  | some l, _ => if l.isSmartSocket || noRebind then v else v.rebindListener l connectTo t
  | none, none => v
  | none, some localName =>
    let l : AListener := { id := v.nextListener, localName, connectTo, transport := some t }
    let v := { v with listeners := v.listeners ++ [l], nextListener := l.id + 1 }
    v.setDisconnects t (v.disconnects t ++ [l.id])

def removeListener (v : Server) (localName : Bytes) : Server :=
  match v.listeners.find? (·.localName == localName) with
  | none   => v
  | some l => v.eraseListener l

def removeAllListeners (v : Server) : Server :=
  (v.listeners.filter (·.connectTo.head? != some 42)).foldl eraseListener v

def hasDevice (v : Server) (address : Bytes) : Bool :=
  v.devices.any fun d => !d.closed && d.addressKey == address

def connect (v : Server) (address : Bytes) : Server :=
  if v.hasDevice address then v
  else
    let listener := FacadeListener.onConnectionStateChanged { serial := address } address .connecting
    { v with devices := v.devices ++ [{ addressKey := address, serial := address, listener }] }

-- The end of the connect thread, with the serial that the device is connected under. A connection
-- that nobody waits for any more is closed.
def finishConnect (v : Server) (i : Nat) (d : Device) (serial : Option Bytes) : Server :=
  let v := v.modifyDevice i ({ · with thread := .finished })
  match serial with
  | some serial =>
    if d.closed then v.kickFound serial
    else
      v.modifyDevice i fun d =>
        { d with serial, listener := d.listener.onConnectionStateChanged serial .device }
  | none =>
    if d.closed then v else v.modifyDevice i fun d => { d with listener := d.listener.onError }

-- `connect_device` up to the wait; `result` is the serial if the socket could be connected. For a
-- serial that is in the registry already the answer is `already connected to`.
def connectDevice (v : Server) (i : Nat) (d : Device) (result : Option Bytes) : Server :=
  match result with
  | none => v.finishConnect i d none
  | some serial =>
    match v.registerSocketTransport serial with
    | (v, none)   => v.finishConnect i d (some serial)
    | (v, some t) => v.modifyDevice i ({ · with thread := .waiting serial t })

-- The connect thread goes on when the transport got connected or failed, or after ten seconds.
def waitForConnection (v : Server) (i : Nat) (d : Device) (serial : Bytes) (t : Tid)
    (timedOut : Bool) : Option Server :=
  match v.established t with
  | some true =>
    if (v.looper.transports t).connectionState = .unauthorized then some (v.finishConnect i d none)
    else some (v.finishConnect i d (some serial))
  | some false => some (v.finishConnect i d none)
  | none => if timedOut then some (v.finishConnect i d none) else none

def closeDevice (v : Server) (i : Nat) (d : Device) : Server :=
  if d.closed then v
  else
    (v.kickFound d.serial).modifyDevice i fun d => { d with
      closed   := true
      listener := d.listener.onConnectionStateChanged d.serial .detached }

-- `wait_until_online` at the end of `Client::connect`.
def waitUntilOnline (l : FacadeListener) (timedOut : Bool) : Option ConnectStatus :=
  if l.online then some .ok
  else if l.authRequired then some .authRequired
  else if l.failed then some .connectFailed
  else if timedOut then some .connectTimeout
  else none

def finishClientConnect (v : Server) (i : Nat) (d : Device) (timedOut : Bool) : Option Server :=
  (waitUntilOnline d.listener timedOut).map fun status =>
    let v := v.modifyDevice i ({ · with status := some status })
    if status = .ok then v else v.closeDevice i d

def isOnline (v : Server) (d : Device) : Bool :=
  !d.closed && d.listener.online && (v.findTransport d.serial).isSome

inductive Action where
  -- The looper runs the next task, or handles an event.
  | run (os : Os)
  | event (a : Looper.Action)
  -- The threads of a connection read a packet or fail.
  | read (t : Tid) (p : ReceivedPacket)
  | fail (t : Tid)
  | kick (t : Tid)
  -- Port forwarding.
  | installListener (localName connectTo : Bytes) (t : Tid) (noRebind : Bool) (bound : Option Bytes)
  | removeListener (localName : Bytes)
  | removeAllListeners
  | acceptListener (id : Nat)
  -- The calls of the library, with the steps of `Client::connect`, of its connect thread and of
  -- `AdbSession::start`.
  | connect (address : Bytes)
  | connectDevice (i : Nat) (result : Option Bytes)
  | waitForConnection (i : Nat) (timedOut : Bool)
  | finishClientConnect (i : Nat) (timedOut : Bool)
  | startSession (i : Nat) (service : Bytes)
  | postSession (n : Nat)
  | close (i : Nat)

end Server

-- Everything but the tasks, which the looper gets from its queue, and the services, which are opened
-- by a task or a listener.
def Looper.Action.isEvent : Looper.Action → Bool
  | .packet _ _ _ | .handleError _ _ | .openService _ _ => false
  | _ => true

namespace Server

def step (v : Server) : Action → Option Server
  | .run os =>
    match v.tasks with
    | []            => none
    | task :: tasks =>
      if v.looper.ready = [] then some (({ v with tasks } : Server).runTask os task) else none
  | .event a =>
    if a.isEvent then (v.looper.next a).map fun looper => { v with looper } else none
  | .read t p =>
    if (v.link t).any (·.running) then some (v.post (.handlePacket t p)) else none
  | .fail t => if (v.link t).any (·.running) then some (v.reportError t) else none
  | .kick t => some (v.kickTransport t)
  | .installListener localName connectTo t noRebind bound =>
    if (v.link t).isSome then some (v.installListener localName connectTo t noRebind bound) else none
  | .removeListener localName => some (v.removeListener localName)
  | .removeAllListeners => some v.removeAllListeners
  | .acceptListener id =>
    ((v.listeners.find? (·.id == id)).bind (fun l => l.transport.map fun t => (t, l.connectTo))).map
      fun (t, connectTo) => { v with looper := v.looper.openService t connectTo }
  | .connect address => some (v.connect address)
  | .connectDevice i result =>
    (v.devices[i]?).bind fun d =>
      if d.thread = .connecting then some (v.connectDevice i d result) else none
  | .waitForConnection i timedOut =>
    (v.devices[i]?).bind fun d =>
      match d.thread with
      | .waiting serial t => v.waitForConnection i d serial t timedOut
      | _ => none
  | .finishClientConnect i timedOut =>
    (v.devices[i]?).bind fun d =>
      if d.status = none then v.finishClientConnect i d timedOut else none
  | .startSession i service =>
    (v.devices[i]?).bind fun d =>
      (v.findTransport d.serial).map fun t => { v with starting := v.starting ++ [(t, service)] }
  | .postSession n =>
    (v.starting[n]?).map fun (t, service) =>
      ({ v with starting := v.starting.eraseIdx n } : Server).post (.startSession t service)
  | .close i =>
    (v.devices[i]?).bind fun d => if d.status = some .ok then some (v.closeDevice i d) else none

-- Nothing happens any more once the process has ended.
def next (v : Server) (a : Action) : Option Server :=
  if v.looper.aborted.isSome then none else v.step a

def Runs (P : Server → Action → Prop) : Server → Server → Prop :=
  Reach (fun v a v' => v.next a = some v') P

def Reachable (P : Server → Action → Prop) (v : Server) : Prop :=
  Runs P {} v

end Server

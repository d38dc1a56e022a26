import LibAdb.Execution.Server
import LibAdb.Objects.Client

namespace Client

-- `AdbDevice::close`; there is no next point when it is over.
def closeDevice (c : Client) (i : Nat) (d : AdbDevice) : DevicePoint → Client × Option DevicePoint
  | .mark =>
    if d.closed then (c, none) else (c.modifyDevice i ({ · with closed := true }), some .find)
  | .find =>
    match c.findTransport d.serial with
    | none   => (c, some .notify)
    | some t => (c, some (.kick t))
  | .kick t => (c.kickTransport t, some .notify)
  | .notify =>
    (c.modifyImpl i fun e =>
      { e with listener := e.listener.onConnectionStateChanged d.serial .detached }, none)

def afterClose (i : Nat) : AfterClose → Call
  | .finish             => .returned none
  | .discard            => .discard i
  | .destroy            => .destroyed i
  | .next rest shutdown => .closeEach rest shutdown

-- `Impl::close`, with the removal of the own entry from the registry in `disconnectDevice`.
def close (c : Client) (i : Nat) (d : DeviceImpl) (after : AfterClose) :
    ClosePoint → Option (Client × Call)
  | .lock =>
    if d.locked then none
    else some (c.modifyImpl i ({ · with locked := true }), .close i .mark after)
  | .mark =>
    if d.closed then some (c, .close i .release after)
    else
      some (c.modifyImpl i ({ · with closed := true }),
        .close i (if d.device.isSome then .unregister else .release) after)
  | .unregister =>
    if c.registryHeld then none
    else
      some ({ c with registry := c.registry.filter (· != (d.addressKey, i)) },
        .close i (.device .mark) after)
  | .device p =>
    d.device.map fun e =>
      match c.closeDevice i e p with
      | (c, some p) => (c, .close i (.device p) after)
      | (c, none)   => (c, .close i .release after)
  | .release =>
    if d.releaseSlot then
      some (c.modifyImpl i ({ · with releaseSlot := false }), .close i .free after)
    else some (c, .close i .unlock after)
  | .free =>
    some ({ c with slots := c.slots.release, freed := c.freed ++ [i] }, .close i .unlock after)
  | .unlock => some (c.modifyImpl i ({ · with locked := false }), afterClose i after)

-- `AdbManager::connectDevice` from `Client::connect`. Without a device, the `Impl` has nothing to
-- close but its slot.
def register (c : Client) (i : Nat) (d : DeviceImpl) : Option (Client × Call) :=
  if c.registryHeld then none
  else if c.hasDevice d.addressKey then
    some (c.modifyImpl i ({ · with closed := true }), .discard i)
  else
    let c := { c with registry := c.registry ++ [(d.addressKey, i)] }
    let device : AdbDevice := { serial := d.addressKey }
    some (c.modifyImpl i fun d => { d with
      device   := some device
      listener := d.listener.onConnectionStateChanged d.addressKey .connecting }, .wait i)

-- The next step of a call. `b` is whether the time to wait is over.
def resume (c : Client) (b : Bool) : Call → Option (Client × Call)
  | .connect address => some (c, if c.initialized then .lookUp address else .returned none)
  | .lookUp address =>
    if c.registryHeld then none
    else some (c, if c.hasDevice address then .returned none else .acquire address)
  | .acquire address =>
    if c.slots.hasRoom then some ({ c with slots := c.slots.acquire }, .build address)
    else if b then some (c, .returned none) else none
  | .build address =>
    let d : DeviceImpl := { addressKey := address, listener := { serial := address } }
    some ({ c with impls := c.impls ++ [d] }, .register c.impls.length)
  | .register i => (c.impls[i]?).bind (c.register i)
  | .wait i =>
    (c.impls[i]?).bind fun d => (Server.waitUntilOnline d.listener b).map fun status =>
      (c, if status = .ok then .remember i else .close i .lock .discard)
  | .remember i =>
    let c := c.modifyImpl i ({ · with life := .alive })
    some ({ c with remembered := c.remembered.filter c.isAlive ++ [i] }, .returned (some i))
  | .close i p after => (c.impls[i]?).bind fun d => c.close i d after p
  | .discard i =>
    some (c.modifyImpl i ({ · with life := .dying }), .close i .lock .destroy)
  | .destroyed i => some (c.modifyImpl i ({ · with life := .dead }), .returned none)
  | .closeAll shutdown =>
    some ({ c with remembered := [] }, .closeEach (c.remembered.filter c.isAlive) shutdown)
  | .closeEach [] shutdown => some (c, if shutdown then .clearInitialized else .returned none)
  | .closeEach (i :: rest) shutdown => some (c, .close i .lock (.next rest shutdown))
  | .clearInitialized =>
    if c.initialized then some ({ c with initialized := false }, .stopManager)
    else some (c, .returned none)
  | .stopManager =>
    if !c.running then some (c, .returned none)
    else if c.registryHeld then none
    else some ({ c with registryHeld := true }, .stopEach (c.registry.map (·.2)))
  | .stopEach [] => some ({ c with registry := [], registryHeld := false }, .stopLoop)
  | .stopEach (i :: rest) => some (c, .stopDevice i .mark rest)
  | .stopDevice i p rest =>
    ((c.impls[i]?).bind (·.device)).map fun d =>
      match c.closeDevice i d p with
      | (c, some p) => (c, .stopDevice i p rest)
      | (c, none)   => (c, .stopEach rest)
  | .stopLoop => some ({ c with running := false }, .returned none)
  | .operate _ => some (c, .returned none)
  | .returned _ => none

-- The next step of a connect thread. `b` is whether the socket can be connected and whether the
-- device answers in time.
def resumeThread (c : Client) (i : Nat) (d : AdbDevice) (b : Bool) : Option Client :=
  let go (stage : ConnectStage) (c : Client) := c.modifyDevice i ({ · with thread := stage })
  match d.thread with
  | .connecting =>
    if !b then some (go (.answered false) c)
    else if c.isRegistered d.serial then some (go (.answered true) c)
    else some (go .waiting { c with transports := c.transports ++ [{ serial := d.serial }] })
  | .waiting => some (go (.answered b) c)
  | .answered connected =>
    if d.closed then some (go (if connected then .unwanted else .finished) c)
    else
      some (go .finished <| c.modifyImpl i fun e => { e with
        listener := if connected then e.listener.onConnectionStateChanged d.serial .device
          else e.listener.onError })
  | .unwanted =>
    match c.findTransport d.serial with
    | none   => some (go .finished c)
    | some t => some (go (.kicking t) c)
  | .kicking t => some (go .finished (c.kickTransport t))
  | .finished => none

def isOnline (c : Client) (i : Nat) : Bool :=
  (c.impls[i]?).any fun d => !d.closed && d.listener.online &&
    d.device.any fun e => (c.findTransport e.serial).isSome

end Client

namespace Call

-- The call refers to the device, which is not destroyed before the call is over.
def uses (i : Nat) : Call → Bool
  | .register j | .wait j | .remember j | .discard j | .destroyed j | .operate j => i == j
  | .close j _ (.next rest _) => i == j || rest.contains i
  | .close j _ _ => i == j
  | .closeEach rest _ => rest.contains i
  | _ => false

end Call

structure Application where
  client : Client := {}
  calls  : List Call := []
  deriving DecidableEq, Repr

namespace Application

inductive Action where
  -- `Client::initialize`.
  | configure (maxConnections : Nat)
  | setMaxConnections (limit : Nat)
  -- A thread enters the library. `drop` gives up the last reference to a device.
  | connect (address : Bytes)
  | close (i : Nat)
  | drop (i : Nat)
  | closeAll (shutdown : Bool)
  | operate (i : Nat)
  | resume (k : Nat) (b : Bool)
  | thread (i : Nat) (b : Bool)
  -- The looper lists a transport that was registered or deletes one that was kicked; a transport
  -- may also be kicked for other reasons.
  | list (t : Tid)
  | delete (t : Tid)
  | kick (t : Tid)
  deriving DecidableEq, Repr

def enter (s : Application) (call : Call) : Application :=
  { s with calls := s.calls ++ [call] }

def next (s : Application) : Action → Option Application
  | .configure maxConnections =>
    let slots := { s.client.slots with limit := maxConnections }
    let running := s.client.running || !s.client.initialized
    some { s with client := { s.client with slots, running, initialized := true } }
  | .setMaxConnections limit =>
    some { s with client := { s.client with slots := { s.client.slots with limit } } }
  | .connect address => some (s.enter (.connect address))
  | .close i => if s.client.isAlive i then some (s.enter (.close i .lock .finish)) else none
  | .drop i =>
    if s.client.isAlive i && !s.calls.any (·.uses i) then
      let client := s.client.modifyImpl i ({ · with life := .dying })
      some { client, calls := s.calls ++ [.close i .lock .destroy] }
    else none
  | .closeAll shutdown => some (s.enter (.closeAll shutdown))
  | .operate i =>
    if s.client.isAlive i && s.client.isOnline i then some (s.enter (.operate i)) else none
  | .resume k b =>
    (s.calls[k]?).bind fun call => (s.client.resume b call).map fun (client, call) =>
      { client, calls := s.calls.set k call }
  | .thread i b =>
    ((s.client.impls[i]?).bind (·.device)).bind fun d =>
      (s.client.resumeThread i d b).map fun client => { s with client }
  | .list t =>
    if s.client.running then
      some { s with client := { s.client with
        transports := s.client.transports.modify t ({ · with listed := true }) } }
    else none
  | .delete t =>
    if (s.client.transports[t]?).any (·.kicked) then
      some { s with client := { s.client with
        transports := s.client.transports.modify t ({ · with deleted := true }) } }
    else none
  | .kick t => some { s with client := s.client.kickTransport t }

def Runs (P : Application → Action → Prop) : Application → Application → Prop :=
  Reach (fun s a s' => s.next a = some s') P

def Reachable (P : Application → Action → Prop) (s : Application) : Prop :=
  Runs P {} s

end Application

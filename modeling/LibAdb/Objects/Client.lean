import LibAdb.Objects.Server

-- The client of the library and the threads that call it. A thread stands at one point of its call,
-- and what it does under a lock is one step.

structure SlotPool where
  limit  : Nat := 0
  active : Nat := 0
  deriving DecidableEq, Repr

namespace SlotPool

def hasRoom (p : SlotPool) : Bool :=
  p.limit == 0 || p.active < p.limit

def acquire (p : SlotPool) : SlotPool :=
  { p with active := p.active + 1 }

def release (p : SlotPool) : SlotPool :=
  if 0 < p.active then { p with active := p.active - 1 } else p

end SlotPool

-- The thread of `AdbDevice::initiateConnection`: it connects, waits for the device and, when the
-- device was closed in the meantime, looks for the transport to kick it.
inductive ConnectStage where
  | connecting
  | waiting
  | answered (connected : Bool)
  | unwanted
  | kicking (t : Tid)
  | finished
  deriving DecidableEq, Repr

-- The serial is the normalised address, which `connect_device` keeps.
structure AdbDevice where
  serial : Bytes
  closed : Bool := false
  thread : ConnectStage := .connecting
  deriving DecidableEq, Repr

-- An `Impl` is built by `Client::connect`, belongs to a `Device` from its end on and is destroyed
-- with it, or at once if the connection failed.
inductive Life where
  | building
  | alive
  | dying
  | dead
  deriving DecidableEq, Repr

structure DeviceImpl where
  addressKey  : Bytes
  device      : Option AdbDevice := none
  listener    : FacadeListener
  closed      : Bool := false
  -- Whether `close_mutex` is held.
  locked      : Bool := false
  releaseSlot : Bool := true
  life        : Life := .building
  deriving DecidableEq, Repr

-- A transport is in the pending list first. It is deleted some time after it was kicked.
structure Registration where
  serial  : Bytes
  listed  : Bool := false
  kicked  : Bool := false
  deleted : Bool := false
  deriving DecidableEq, Repr

-- The points of `AdbDevice::close`.
inductive DevicePoint where
  | mark
  | find
  | kick (t : Tid)
  | notify
  deriving DecidableEq, Repr

-- The points of `Impl::close`.
inductive ClosePoint where
  | lock
  | mark
  | unregister
  | device (p : DevicePoint)
  | release
  | free
  | unlock
  deriving DecidableEq, Repr

-- What comes after `Impl::close`: the end of the call, the end of a failed `connect`, the end of the
-- destructor, or the next device of `close_all`, which may be the first part of `shutdown`.
inductive AfterClose where
  | finish
  | discard
  | destroy
  | next (rest : List Nat) (shutdown : Bool)
  deriving DecidableEq, Repr

inductive Call where
  -- `Client::connect` up to the check of `initialized`, of the registry, to the slot, the `Impl`, the
  -- entry in the registry, the answer of the device and the new `Device`.
  | connect (address : Bytes)
  | lookUp (address : Bytes)
  | acquire (address : Bytes)
  | build (address : Bytes)
  | register (i : Nat)
  | wait (i : Nat)
  | remember (i : Nat)
  -- `Impl::close`, and the destructor of `Impl` before and after it.
  | close (i : Nat) (p : ClosePoint) (after : AfterClose)
  | discard (i : Nat)
  | destroyed (i : Nat)
  -- `Client::close_all` and `Client::shutdown`, with `AdbManager::stop` at the end.
  | closeAll (shutdown : Bool)
  | closeEach (rest : List Nat) (shutdown : Bool)
  | clearInitialized
  | stopManager
  | stopEach (rest : List Nat)
  | stopDevice (i : Nat) (p : DevicePoint) (rest : List Nat)
  | stopLoop
  -- An operation that has found its device online.
  | operate (i : Nat)
  | returned (device : Option Nat)
  deriving DecidableEq, Repr

-- The shared state. `freed` has the devices whose slot was given back, in this order.
structure Client where
  initialized  : Bool := false
  slots        : SlotPool := {}
  remembered   : List Nat := []
  running      : Bool := false
  registry     : List (Bytes × Nat) := []
  registryHeld : Bool := false
  transports   : List Registration := []
  impls        : List DeviceImpl := []
  freed        : List Nat := []
  deriving DecidableEq, Repr

namespace Client

def modifyImpl (c : Client) (i : Nat) (f : DeviceImpl → DeviceImpl) : Client :=
  { c with impls := c.impls.modify i f }

def modifyDevice (c : Client) (i : Nat) (f : AdbDevice → AdbDevice) : Client :=
  c.modifyImpl i fun d => { d with device := d.device.map f }

def hasDevice (c : Client) (address : Bytes) : Bool :=
  c.registry.any (·.1 == address)

def isAlive (c : Client) (i : Nat) : Bool :=
  (c.impls[i]?).any (·.life == .alive)

def findTransport (c : Client) (serial : Bytes) : Option Tid :=
  c.transports.findIdx? fun t => t.listed && !t.deleted && t.serial == serial

def isRegistered (c : Client) (serial : Bytes) : Bool :=
  c.transports.any fun t => !t.deleted && t.serial == serial

def kickTransport (c : Client) (t : Tid) : Client :=
  { c with
    transports := c.transports.modify t fun r =>
      if r.listed && !r.deleted then { r with kicked := true } else r }

end Client

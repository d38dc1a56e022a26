import LibAdb.Library.Store
import LibAdb.Objects.Transport

abbrev Ref := Nat
abbrev Tid := Nat

-- The function pointers of an `asocket`. A local socket that was handed over by a smart socket has
-- its `ready` and `close` replaced by the `_notify` variants until one of them is called.
inductive SocketOps where
  | localSocket
  | localNotify
  | remoteSocket
  | smartSocket
  | deviceTracker
  deriving DecidableEq, Repr

namespace SocketOps

def isLocal : SocketOps → Bool
  | .localSocket | .localNotify => true
  | _ => false

end SocketOps

structure ASocket where
  ops                : SocketOps
  id                 : UInt32 := 0
  closing            : Bool := false
  hasWriteError      : Bool := false
  peer               : Option Ref := none
  transport          : Option Tid := none
  -- The events `FDE_READ` and `FDE_WRITE` of `fde->state`.
  fdeRead            : Bool := false
  fdeWrite           : Bool := false
  packetQueue        : Bytes := []
  availableSendBytes : Option Int := none
  smartSocketData    : Bytes := []
  updateNeeded       : Bool := false
  deriving DecidableEq, Repr

-- The `CHECK`s and `LOG(FATAL)`s of the modelled code, and the exception that `std::string` throws
-- when it is built from a null pointer.
inductive Abort where
  | payloadMismatch
  | idOverflow
  | invalidRemoteId
  | openTooLong
  | unhandledReverse
  | nullAddress
  | disallowedConnect
  | closingNotArmed
  | serialNotTerminated
  | noHandshakeKey
  | noAndroidDir
  deriving DecidableEq, Repr

-- What the process does to the outside and to its sockets, in order. A packet is recorded with the
-- local socket it is sent for, if there is one. `acked` is an `OKAY` that was taken for the socket,
-- `accepted` the device's `OPEN` that created it and `closedByRemote` a `CLSE` for it or the loss of
-- its transport.
inductive Effect where
  | sent (src : Option Ref) (t : Tid) (p : Apacket)
  | read (r : Ref) (bs : Bytes)
  | enqueued (r : Ref) (bs : Bytes)
  | wrote (r : Ref) (bs : Bytes)
  | writeFailed (r : Ref)
  | acked (r : Ref) (n : Option Int)
  | accepted (r : Ref)
  | closedByRemote (r : Ref)
  | status (r : Ref) (text : Bytes)
  | destroyed (r : Ref)
  deriving DecidableEq, Repr

structure FdEvents where
  read  : Bool := false
  write : Bool := false
  error : Bool := false
  deriving DecidableEq, Repr

-- The state that the looper thread works on. `ready` are the events of the current `epoll_wait` that
-- have not been handled yet. The process has ended when `aborted` is set.
structure Looper where
  sockets                : Store ASocket := .empty
  localSocketList        : List Ref := []
  localSocketClosingList : List Ref := []
  localSocketNextId      : UInt32 := 1
  transports             : Tid → ATransport := fun _ => {}
  delayedAckBytes        : UInt64 := initialDelayedAckBytes
  keys                   : List Key := []
  ready                  : List (Ref × FdEvents) := []
  log                    : List Effect := []
  aborted                : Option Abort := none

namespace Looper

def sock (s : Looper) (r : Ref) : Option ASocket :=
  s.sockets.get r

def put (s : Looper) (r : Ref) (c : ASocket) : Looper :=
  { s with sockets := s.sockets.modify r fun _ => c }

def emit (s : Looper) (es : List Effect) : Looper :=
  { s with log := s.log ++ es }

def release (s : Looper) (r : Ref) : Looper :=
  { s with sockets := s.sockets.free r }

def setTransport (s : Looper) (t : Tid) (tr : ATransport) : Looper :=
  { s with transports := fun u => if u = t then tr else s.transports u }

def abort (s : Looper) (a : Abort) : Looper :=
  { s with aborted := some (s.aborted.getD a) }

section

variable {s : Looper} {r n : Ref} {c c' : ASocket} {t : Tid} {tr : ATransport} {es : List Effect}

theorem sock_put (h : s.sock r = some c) :
    (s.put r c').sock n = if n = r then some c' else s.sock n := by
  unfold sock at h
  simp [sock, put, Store.get_modify, h]

theorem put_put : (s.put r c).put r c' = s.put r c' := by
  simp only [put, Store.modify_modify]
  rfl

theorem put_self (h : s.sock r = some c) : s.put r c = s := by
  have h' : s.sockets.modify r (fun _ => c) = s.sockets := Store.modify_of_get h rfl
  simp only [put, h']

@[simp]
theorem sock_emit : (s.emit es).sock = s.sock :=
  rfl

@[simp]
theorem emit_nil : s.emit [] = s := by
  simp [emit]

theorem sock_release : (s.release r).sock n = if n = r then none else s.sock n :=
  rfl

end

def peerOf (s : Looper) (c : ASocket) : Option ASocket :=
  c.peer.bind s.sock

-- The test that `close_all_sockets` makes: the socket or its peer is bound to the transport.
def belongs (s : Looper) (t : Tid) (r : Ref) : Bool :=
  match s.sock r with
  | none   => false
  | some c => c.transport == some t || (s.peerOf c).any (·.transport == some t)

def getMaxPayload (s : Looper) (c : ASocket) : Nat :=
  let own  := (c.transport.map fun t => (s.transports t).maxPayload).getD Apacket.maxPayload
  let peer := ((s.peerOf c).bind (·.transport)).map fun t => (s.transports t).maxPayload
  min (min Apacket.maxPayload own) (peer.getD Apacket.maxPayload)

def findLocalSocket (s : Looper) (localId peerId : UInt32) : Option Ref :=
  match s.localSocketList.find? fun r => (s.sock r).any (·.id == localId) with
  | none   => none
  | some r =>
    if peerId == 0 || (((s.sock r).bind s.peerOf).any (·.id == peerId)) then some r else none

end Looper

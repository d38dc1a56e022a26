import LibAdb.Execution.Loop
import LibAdb.Machine.History

-- An abstract machine for the socket table. A step of the looper is a sequence of the acts below:
-- sockets are created, linked to their peers, unlinked and deleted, and a single socket changes by
-- what it receives, reads and sends. The invariants of the table hold between any two acts.

namespace ASocket

structure Fresh (c : ASocket) : Prop where
  ops     : c.ops ≠ .localNotify
  peer    : c.peer = none
  closing : c.closing = false
  queue   : c.packetQueue = []
  error   : c.hasWriteError = false
  credit  : c.availableSendBytes = none
  fdeRead : c.fdeRead = false
  remote  : c.ops = .remoteSocket → c.transport.isSome
  unbound : c.ops.isLocal → c.transport = none
  smart   : c.ops = .smartSocket → c.id = 0

def credited (c : ASocket) (n : Option Int) (window : UInt64) : Option Int :=
  match c.availableSendBytes, n with
  | some available, some n => some (creditAfter available n window)
  | available, _ => available

def queued (c : ASocket) (data : Option Bytes) : ASocket :=
  { c with packetQueue := c.packetQueue ++ data.getD [] }

def receiveEffects (c : ASocket) (r : Ref) (data : Option Bytes) (w : WriteResult) : List Effect :=
  data.toList.map (.enqueued r) ++ (c.queued data).writevEffects r w

-- A stream has a credit if its transport supports delayed acknowledgements.
def boundTo (c : ASocket) (t : Tid) (tr : ATransport) (ops : SocketOps) (credit : Int) : ASocket :=
  { c with ops, transport := some t, availableSendBytes := if tr.delayedAck then some credit else none }

def spent (c : ASocket) (data : Bytes) : ASocket :=
  let available := c.availableSendBytes.map (· - (data.length : Int))
  { c with
    availableSendBytes := available
    fdeRead := if available.all (· ≤ 0) then false else c.fdeRead }

end ASocket

namespace Looper

def readyPayload (s : Looper) (t : Tid) (ackBytes : UInt32) : Bytes :=
  if (s.transports t).delayedAck then ackBytes.toBytes else []

def readyEffect (s : Looper) (r : Ref) (loc remote : UInt32) (t : Tid) (ackBytes : UInt32) : Effect :=
  let p := Apacket.make .okay loc remote (s.readyPayload t ackBytes)
  let dataCheck := if (s.transports t).protocolVersion ≥ aVersionSkipChecksum then 0 else p.checksum
  .sent (some r) t { p with magic := p.command ^^^ 0xffffffff, dataCheck }

-- What a flush sends that took `flushed` bytes off the queue and left the socket as `c`.
def ackEffects (s : Looper) (r : Ref) (c : ASocket) (flushed : Nat) : List Effect :=
  match c.transport, s.peerOf c with
  | some t, some d =>
    match c.availableSendBytes with
    | some _ => [s.readyEffect r c.id d.id t (UInt32.ofNat flushed)]
    | none =>
      if flushed ≠ 0 && c.packetQueue.length < Apacket.maxPayload then
        [s.readyEffect r c.id d.id t 0]
      else []
  | _, _ => []

def ackPayloads (s : Looper) (c : ASocket) (flushed : Nat) : List Bytes :=
  match c.transport, s.peerOf c with
  | some t, some _ =>
    match c.availableSendBytes with
    | some _ => [s.readyPayload t (UInt32.ofNat flushed)]
    | none =>
      if flushed ≠ 0 && c.packetQueue.length < Apacket.maxPayload then [s.readyPayload t 0] else []
  | _, _ => []

structure Unused (s : Looper) (r : Ref) (c : ASocket) : Prop where
  queue    : c.packetQueue = []
  received : (s.history r).received = []
  okays    : (s.history r).okays = []
  accepted : (s.history r).accepted = false

end Looper

inductive SocketAct where
  | ready
  | restore
  | acked (n : Option Int)
  | accepted (t : Tid) (n : UInt32)
  | opened (t : Tid)
  | bind (t : Tid)
  | receive (data : Option Bytes)
  | forward (t : Tid) (data : Bytes)
  | relay (data : Bytes)
  | discard (data : Bytes)
  | pause
  | hangUp
  | tend
  | switch (t : Tid)
  deriving DecidableEq

namespace SocketAct

-- The acts of a single socket with their effects. `forward` sends what was read to the device,
-- `relay` hands it to a peer on the host and `discard` drops it as there is no peer.
inductive Step (s : Looper) (r : Ref) (c : ASocket) : SocketAct → List Effect → ASocket → Prop
  | ready (l : c.ops.isLocal) (n : ∀ e ∈ es, History.Neutral e) :
    Step s r c .ready es { c with ops := .localSocket, fdeRead := true }
  | restore (l : c.ops.isLocal) :
    Step s r c .restore [] { c with ops := .localSocket }
  | acked (l : c.ops.isLocal) (o : c.closing = false) :
    Step s r c (.acked n) [.acked r n]
      { c with availableSendBytes := c.credited n s.delayedAckBytes }
  | accepted (l : c.ops.isLocal) (hp : c.peer = some p) (hd : s.sock p = some d)
    (hr : d.ops = .remoteSocket) (ho : (s.history r).opened = false)
    (hn : (s.transports t).delayedAck → n ≠ 0) (hu : s.Unused r c) :
    Step s r c (.accepted t n)
      [.accepted r, s.readyEffect r c.id d.id t s.delayedAckBytes.toUInt32]
      (c.boundTo t (s.transports t) c.ops n.toNat)
  | opened (l : c.ops.isLocal) (o : c.closing = false) (hp : c.peer = none) (lo : ops.isLocal)
    (k : p.kind = some .open) (hu : s.Unused r c) :
    Step s r c (.opened t) [.sent (some r) t p] (c.boundTo t (s.transports t) ops 0)
  | bind (l : c.ops.isLocal) (hp : c.peer = none) (lo : ops.isLocal) :
    Step s r c (.bind t) [] { c with ops, transport := some t }
  | receive {data : Option Bytes} {w : WriteResult} {b : Bool}
    (l : c.ops.isLocal) (hb : ((c.queued data).writev w).1.fdFull → b)
    (hd : data.isSome → ∃ p d, c.peer = some p ∧ s.sock p = some d ∧ d.ops ≠ .smartSocket) :
    Step s r c (.receive data)
      (c.receiveEffects r data w ++
        s.ackEffects r ((c.queued data).writev w).1 ((c.queued data).writev w).2)
      { ((c.queued data).writev w).1 with fdeWrite := b }
  | forward (l : c.ops.isLocal) (hp : c.peer = some p) (hd : s.sock p = some d)
    (hr : d.ops = .remoteSocket) (ht : d.transport = some t) (k : m.kind = some .wrte)
    (hm : m.payload = data) (h₀ : m.arg0 = c.id) (h₁ : m.arg1 = d.id) :
    Step s r c (.forward t data) [.read r data, .sent (some r) t m] (c.spent data)
  | relay (l : c.ops.isLocal) (hp : c.peer = some p) (hd : s.sock p = some d)
    (hr : d.ops ≠ .remoteSocket) :
    Step s r c (.relay data) [.read r data]
      { c with availableSendBytes := c.availableSendBytes.map (· - (data.length : Int)) }
  | discard (l : c.ops.isLocal) (hp : c.peer = none) :
    Step s r c (.discard data) [.read r data] c
  | pause (l : c.ops.isLocal) :
    Step s r c .pause [] { c with fdeRead := false }
  | hangUp (l : c.ops.isLocal) :
    Step s r c .hangUp [.closedByRemote r] c
  | tend (l : c.ops.isLocal = false) :
    Step s r c .tend [] { c with smartSocketData, updateNeeded }
  | switch (l : c.ops = .smartSocket) :
    Step s r c (.switch t) [] { c with smartSocketData, transport := some t }

end SocketAct

inductive Act where
  | create (r : Ref)
  | link (r p : Ref)
  | attach (r p : Ref) (t : Tid) (n : Option Int)
  | unlink (r p : Ref)
  | finish (r p : Ref)
  | retire (r p : Ref)
  | release (r : Ref)
  | destroy (r : Ref)
  | drop (r : Ref)
  | linger (r : Ref)
  | socket (r : Ref) (a : SocketAct)
  | transport (t : Tid) (tr : ATransport)
  | setWindow (w : UInt64)
  | poll
  | other
  | abort (a : Abort)

namespace Looper

-- A local socket takes the next id. The process has ended if that was the last one.
def create (s : Looper) (c : ASocket) : Looper :=
  { s with
    sockets := s.sockets.alloc c
    localSocketList :=
      if c.ops.isLocal then s.localSocketList ++ [s.sockets.next] else s.localSocketList
    localSocketNextId :=
      if c.ops.isLocal then s.localSocketNextId + 1 else s.localSocketNextId }

def linger (s : Looper) (r : Ref) (c : ASocket) : Looper :=
  let s := (s.put r { c with closing := true, fdeRead := false }).removeSocket r
  { s with localSocketClosingList := s.localSocketClosingList ++ [r] }

def attached (s : Looper) (r p : Ref) (c : ASocket) (n : Option Int) : Looper :=
  ((s.link r p).put r { c with
    peer := some p
    availableSendBytes := c.credited n s.delayedAckBytes }).emit [.acked r n]

end Looper

namespace Act

-- A local socket that is destroyed has nothing left to write, or cannot write any more. A socket
-- that is closing may also be dropped with the rest of its queue. A stream that loses its remote peer
-- is destroyed or begins to close at once.
inductive Step : Looper → Act → Looper → Prop
  | create (h : c.Fresh) (hi : c.ops.isLocal → c.id = s.localSocketNextId ∧
      (s.localSocketNextId + 1 = 0 → s.aborted.isSome)) :
    Step s (.create s.sockets.next) (s.create c)
  | link (hr : s.sock r = some c) (hp : s.sock p = some d) (ne : r ≠ p) (l : c.ops.isLocal)
    (co : c.closing = false) (do' : d.closing = false) (cp : c.peer = none) (dp : d.peer = none)
    (cc : (s.history r).opened = false ∧ c.availableSendBytes = none)
    (dc : (s.history p).opened = false ∧ d.availableSendBytes = none)
    (cf : d.ops = .remoteSocket → c.fdeRead = false) (cu : d.ops = .smartSocket → s.Unused r c) :
    Step s (.link r p) (s.link r p)
  | attach (hr : s.sock r = some c) (hp : s.sock p = some d) (ne : r ≠ p) (l : c.ops.isLocal)
    (co : c.closing = false) (do' : d.closing = false) (cp : c.peer = none) (dp : d.peer = none)
    (dr : d.ops = .remoteSocket) (dt : d.transport = some t)
    (dc : (s.history p).opened = false ∧ d.availableSendBytes = none) :
    Step s (.attach r p t n) (s.attached r p c n)
  | unlink (hr : s.sock r = some c) (hp : s.sock p = some d) (cp : c.peer = some p)
    (dp : d.peer = some r) (cr : c.ops ≠ .remoteSocket) (dr : d.ops ≠ .remoteSocket) :
    Step s (.unlink r p) (s.unlink r p)
  | finish (hr : s.sock r = some c) (hp : s.sock p = some d) (cp : c.peer = some p)
    (dp : d.peer = some r) (l : c.ops.isLocal) (dr : d.ops = .remoteSocket)
    (h : c.hasWriteError ∨ c.packetQueue = []) :
    Step s (.finish r p) ((s.unlink r p).localSocketDestroy r)
  | retire (hr : s.sock r = some c) (hp : s.sock p = some d) (cp : c.peer = some p)
    (dp : d.peer = some r) (l : c.ops.isLocal) (dr : d.ops = .remoteSocket) (h : c.closing = false) :
    Step s (.retire r p) ((s.unlink r p).linger r { c with peer := none })
  | release (hr : s.sock r = some c) (cp : c.peer = none) (l : c.ops.isLocal = false) :
    Step s (.release r) (s.release r)
  | destroy (hr : s.sock r = some c) (cp : c.peer = none) (l : c.ops.isLocal)
    (h : c.hasWriteError ∨ c.packetQueue = []) : Step s (.destroy r) (s.localSocketDestroy r)
  | drop (hr : s.sock r = some c) (cp : c.peer = none) (l : c.ops.isLocal) (h : c.closing) :
    Step s (.drop r) (s.localSocketDestroy r)
  | linger (hr : s.sock r = some c) (cp : c.peer = none) (l : c.ops.isLocal) (h : c.closing = false) :
    Step s (.linger r) (s.linger r c)
  | socket (hr : s.sock r = some c) (h : a.Step s r c es c') :
    Step s (.socket r a) ((s.put r c').emit es)
  | transport : Step s (.transport t tr) (s.setTransport t tr)
  | setWindow : Step s (.setWindow w) { s with delayedAckBytes := w }
  | poll (h : ∀ e ∈ events, ∃ c, s.sock e.1 = some c ∧ c.ops.isLocal) :
    Step s .poll { s with ready := events }
  | other (sockets : s'.sockets = s.sockets) (l : s'.localSocketList = s.localSocketList)
    (cl : s'.localSocketClosingList = s.localSocketClosingList)
    (i : s'.localSocketNextId = s.localSocketNextId) (t : s'.transports = s.transports)
    (w : s'.delayedAckBytes = s.delayedAckBytes) (a : s'.aborted = s.aborted)
    (log : s'.log = s.log ++ es) (n : ∀ e ∈ es, History.Neutral e) (rd : s'.ready ⊆ s.ready) :
    Step s .other s'
  | abort : Step s (.abort a) (s.abort a)

def touches : Act → List Ref
  | .create r | .release r | .destroy r | .drop r | .linger r | .socket r _ => [r]
  | .link r p | .attach r p _ _ | .unlink r p | .finish r p | .retire r p => [r, p]
  | .transport _ _ | .setWindow _ | .poll | .other | .abort _ => []

end Act

-- The states that the machine gets to by acts that meet the condition `P`.
def Acts (P : Looper → Act → Prop) : Looper → Looper → Prop :=
  Reach Act.Step P

import LibAdb.Objects.Looper

inductive WriteResult where
  | wrote (n : Nat)
  | again
  | failed
  deriving DecidableEq, Repr

inductive ReadResult where
  | data (bs : Bytes)
  | again
  | failed
  deriving DecidableEq, Repr

inductive SocketFlushResult where
  | destroyed
  | tryAgain
  | completed
  deriving DecidableEq, Repr

-- The return value of `enqueue`: -1, 0 or 1.
inductive EnqueueResult where
  | error
  | accepted
  | full
  deriving DecidableEq, Repr

def hexDigits (n : Nat) : Bytes :=
  let digits := (Nat.toDigits 16 n).map (·.toNat.toUInt8)
  List.replicate (4 - digits.length) 48 ++ digits

-- What is written, unless the string is too long. The length is taken in 32 bits.
def sendProtocolString (s : Bytes) : Option Bytes :=
  let length := s.length % 0x100000000
  if length > Apacket.maxPayload - 4 then none else some (hexDigits length ++ s)

def failStatus (text : Bytes) : Bytes :=
  ascii "FAIL" ++ (sendProtocolString text).getD []

namespace ASocket

def fdFull (c : ASocket) : Bool :=
  c.packetQueue ≠ [] && !c.hasWriteError

-- What one `adb_writev` on the fd does to the socket, with the number of bytes it took. A result of
-- zero bytes is an error here, and nothing is written when there is nothing in the queue.
def writev (c : ASocket) (w : WriteResult) : ASocket × Nat :=
  if c.packetQueue = [] then (c, 0)
  else
    match w with
    | .wrote 0 | .failed => ({ c with hasWriteError := true }, 0)
    | .wrote n => ({ c with packetQueue := c.packetQueue.drop n }, min n c.packetQueue.length)
    | .again => (c, 0)

def writevEffects (c : ASocket) (r : Ref) (w : WriteResult) : List Effect :=
  if c.packetQueue = [] then []
  else
    match w with
    | .wrote 0 | .failed => [.writeFailed r]
    | .wrote n => [.wrote r (c.packetQueue.take n)]
    | .again => []

-- The credit after an acknowledgement. `window` is `delayed_ack_bytes()`, which is cast to a signed
-- number before the comparison.
def creditAfter (available : Int) (acked : Int) (window : UInt64) : Int :=
  min (available + acked) window.toInt64.toInt

-- With delayed acknowledgements, a stream that asks for a service starts without credit.
def opening (c : ASocket) (tr : ATransport) : ASocket :=
  if tr.delayedAck then { c with availableSendBytes := some 0 } else c

end ASocket

def openPacket (c : ASocket) (tr : ATransport) (window : UInt64) (destination : Bytes) : Apacket :=
  .make .open c.id (if tr.delayedAck then window.toUInt32 else 0) (destination ++ [0])

-- The read loop of `local_socket_flush_outgoing`: the data and `is_eof`. A list that ends stands for
-- `EAGAIN`.
def readLoop : List ReadResult → Nat → Bytes × Bool
  | [], _ => ([], false)
  | _ :: _, 0 => ([], false)
  | .again :: _, _ + 1 => ([], false)
  | .failed :: _, _ + 1 => ([], true)
  | .data bs :: rs, avail + 1 =>
    if bs = [] then ([], true)
    else
      let got := bs.take (avail + 1)
      let rest := readLoop rs (avail + 1 - got.length)
      (got ++ rest.1, rest.2)

namespace Looper

def sendPacket (s : Looper) (src : Option Ref) (t : Tid) (p : Apacket) : Looper :=
  let magic := p.command ^^^ 0xffffffff
  let dataCheck := if (s.transports t).protocolVersion ≥ aVersionSkipChecksum then 0 else p.checksum
  s.emit [.sent src t { p with magic, dataCheck }]

def sendReady (s : Looper) (src : Option Ref) (loc remote : UInt32) (t : Tid) (ackBytes : UInt32) :
    Looper :=
  let payload := if (s.transports t).delayedAck then ackBytes.toBytes else []
  s.sendPacket src t (.make .okay loc remote payload)

def sendClose (s : Looper) (loc remote : UInt32) (t : Tid) : Looper :=
  s.sendPacket none t (.make .clse loc remote [])

def sendStatus (s : Looper) (r : Ref) (text : Bytes) : Looper :=
  s.emit [.status r text]

def installLocalSocket (s : Looper) (r : Ref) : Looper :=
  let nextId := s.localSocketNextId + 1
  let s := { s with localSocketNextId := nextId, localSocketList := s.localSocketList ++ [r] }
  if nextId = 0 then s.abort .idOverflow else s

def removeSocket (s : Looper) (r : Ref) : Looper :=
  { s with
    localSocketList        := s.localSocketList.filter (· != r)
    localSocketClosingList := s.localSocketClosingList.filter (· != r) }

def localSocketDestroy (s : Looper) (r : Ref) : Looper :=
  ((s.removeSocket r).release r).emit [.destroyed r]

-- The last part of `local_socket_close`, when the socket has no peer.
def localSocketFinish (s : Looper) (r : Ref) : Looper :=
  match s.sock r with
  | none => s
  | some c =>
    if c.closing || c.hasWriteError || c.packetQueue.isEmpty then s.localSocketDestroy r
    else
      let s := s.put r { c with closing := true, fdeRead := false }
      let s := s.removeSocket r
      let s := { s with localSocketClosingList := s.localSocketClosingList ++ [r] }
      if c.fdeWrite then s else s.abort .closingNotArmed

def restoreOps (s : Looper) (r : Ref) : Looper :=
  match s.sock r with
  | none   => s
  | some c => s.put r { c with ops := .localSocket }

-- `close` of a socket whose peer pointer is null. The peer's `close` is always called in this state,
-- so that the mutual calls of the `close` functions end here.
def closeDetached (s : Looper) (r : Ref) : Looper :=
  match s.sock r with
  | none => s
  | some c =>
    match c.ops with
    | .localSocket => s.localSocketFinish r
    | .localNotify => ((s.restoreOps r).sendStatus r (failStatus (ascii "closed"))).localSocketFinish r
    | .remoteSocket | .smartSocket | .deviceTracker => s.release r

def setPeer (s : Looper) (r : Ref) (peer : Option Ref) : Looper :=
  { s with sockets := s.sockets.modify r ({ · with peer }) }

def unlink (s : Looper) (r p : Ref) : Looper :=
  (s.setPeer p none).setPeer r none

def link (s : Looper) (r p : Ref) : Looper :=
  (s.setPeer r (some p)).setPeer p (some r)

def remoteSocketShutdown (s : Looper) (p : Ref) : Looper :=
  match s.sock p with
  | none => s
  | some d =>
    match d.ops, d.transport with
    | .remoteSocket, some t =>
      let id := ((s.peerOf d).map (·.id)).getD 0
      s.sendPacket d.peer t (.make .clse id d.id [])
    | _, _ => s

-- Only remote sockets have a `shutdown` function. The socket's own peer pointer is cleared after the
-- call of the peer's `close`, which cannot see it any more.
def localSocketClose (s : Looper) (r : Ref) : Looper :=
  match (s.sock r).bind (·.peer) with
  | none => s.localSocketFinish r
  | some p => ((((s.remoteSocketShutdown p).unlink r p).closeDetached p)).localSocketFinish r

-- `remote_socket_close`, `smart_socket_close` and `device_tracker_close` close the peer and delete
-- the socket.
def releasingClose (s : Looper) (r : Ref) : Looper :=
  match (s.sock r).bind (·.peer) with
  | none => s.release r
  | some p => ((s.unlink r p).closeDetached p).release r

def close (s : Looper) (r : Ref) : Looper :=
  match s.sock r with
  | none => s
  | some c =>
    match c.ops with
    | .localSocket => s.localSocketClose r
    | .localNotify => ((s.restoreOps r).sendStatus r (failStatus (ascii "closed"))).localSocketClose r
    | .remoteSocket | .smartSocket | .deviceTracker => s.releasingClose r

-- The loop of `close_all_sockets`, which starts over after every socket that it closed. Each round
-- takes a socket off the list, so that its length bounds the number of rounds.
def closeSockets (t : Tid) : Nat → Looper → Looper
  | 0, s => s
  | n + 1, s =>
    match s.localSocketList.find? (s.belongs t ·) with
    | none   => s
    | some r => closeSockets t n ((s.emit [.closedByRemote r]).close r)

def closeAllSockets (s : Looper) (t : Tid) : Looper :=
  closeSockets t s.localSocketList.length s

def ackFlushed (s : Looper) (r : Ref) (c : ASocket) (flushed : Nat) : Looper :=
  match c.transport, s.peerOf c with
  | some t, some d =>
    match c.availableSendBytes with
    | some _ => s.sendReady (some r) c.id d.id t (UInt32.ofNat flushed)
    | none =>
      if flushed ≠ 0 && c.packetQueue.length < Apacket.maxPayload then
        s.sendReady (some r) c.id d.id t 0
      else s
  | _, _ => s

def localSocketFlushIncoming (s : Looper) (r : Ref) (writev : Ref → Bytes → WriteResult) :
    Looper × SocketFlushResult :=
  match s.sock r with
  | none => (s, .destroyed)
  | some c =>
    let w := writev r c.packetQueue
    let (c', flushed) := c.writev w
    let s := (s.put r c').emit (c.writevEffects r w)
    let s := s.ackFlushed r c' flushed
    if c'.closing && !c'.fdFull then (s.close r, .destroyed)
    else (s.put r { c' with fdeWrite := c'.fdFull }, if c'.fdFull then .tryAgain else .completed)

def localSocketEnqueue (s : Looper) (r : Ref) (data : Bytes) (writev : Ref → Bytes → WriteResult) :
    Looper × EnqueueResult :=
  match s.sock r with
  | none => (s, .error)
  | some c =>
    let s := (s.put r { c with packetQueue := c.packetQueue ++ data }).emit [.enqueued r data]
    match s.localSocketFlushIncoming r writev with
    | (s, .destroyed) => (s, .error)
    | (s, .tryAgain)  => (s, .full)
    | (s, .completed) => (s, .accepted)

def localSocketReady (s : Looper) (r : Ref) : Looper :=
  match s.sock r with
  | none => s
  | some c =>
    match c.ops with
    | .localSocket => s.put r { c with fdeRead := true }
    | .localNotify =>
      (s.put r { c with ops := .localSocket, fdeRead := true }).sendStatus r (ascii "OKAY")
    | _ => s

def localSocketAck (s : Looper) (r : Ref) (acked : Option Int) : Looper :=
  match s.sock r with
  | none => s
  | some c =>
    let s := s.emit [.acked r acked]
    match c.availableSendBytes, acked with
    | some available, some n =>
      let available := ASocket.creditAfter available n s.delayedAckBytes
      let s := s.put r { c with availableSendBytes := some available }
      if available > 0 then s.localSocketReady r else s
    | none, none => s.localSocketReady r
    | _, _ => s

-- `create_local_socket` with the socket's reference.
def createLocalSocket (s : Looper) (transport : Option Tid) : Looper × Ref :=
  let r := s.sockets.next
  let c : ASocket := { ops := .localSocket, id := s.localSocketNextId, transport }
  (({ s with sockets := s.sockets.alloc c } : Looper).installLocalSocket r, r)

def createRemoteSocket (s : Looper) (id : UInt32) (t : Tid) : Looper × Ref :=
  let c : ASocket := { ops := .remoteSocket, id, transport := some t }
  let s := if id = 0 then s.abort .invalidRemoteId else s
  ({ s with sockets := s.sockets.alloc c }, s.sockets.next)

def remoteSocketEnqueue (s : Looper) (p : Ref) (data : Bytes) : Looper × EnqueueResult :=
  match s.sock p with
  | none => (s, .error)
  | some d =>
    if data.length > Apacket.maxPayload then (s, .error)
    else
      match d.transport with
      | none => (s, .error)
      | some t =>
        let id := ((s.peerOf d).map (·.id)).getD 0
        (s.sendPacket d.peer t (.make .wrte id d.id data), .full)

def connectToRemote (s : Looper) (r : Ref) (destination : Bytes) : Looper :=
  match s.sock r with
  | none => s
  | some c =>
    match c.transport with
    | none => s
    | some t =>
      match (s.transports t).updateReverseConfig destination with
      | none => s.abort .unhandledReverse
      | some tr =>
        let s := s.setTransport t tr
        let p := openPacket c tr s.delayedAckBytes destination
        if p.dataLength.toNat ≤ s.getMaxPayload c then
          (s.put r (c.opening tr)).sendPacket (some r) t p
        else s.abort .openTooLong

end Looper

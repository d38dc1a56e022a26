import LibAdb.Machine.Environment

-- What can cause an act: the conditions on the state and the looper's action under which a step can
-- contain it.

-- The socket after the write event that may have come with a read event.
def ASocket.flushed (c : ASocket) (r : Ref) (ev : FdEvents) (os : Os) : ASocket :=
  if ev.write then (c.writev (os.writev r c.packetQueue)).1 else c

namespace Looper

-- The action handles a read event of the socket `r`. It is not handled if the write event that came
-- with it was the end of the socket.
def Dispatches (s : Looper) (a : Action) (r : Ref) (c : ASocket) (ev : FdEvents) (os : Os) : Prop :=
  ∃ rest, a = .dispatch os ∧ s.ready = (r, ev) :: rest ∧ ev.read ∧ s.sock r = some c ∧
    (ev.write → c.closing → (c.flushed r ev os).fdFull)

theorem Dispatches.sock (h : Dispatches s a r c ev os) : s.sock r = some c := by
  obtain ⟨_, _, _, _, hr, _⟩ := h
  exact hr

def readData (s : Looper) (c : ASocket) (os : Os) : Bytes :=
  (readLoop os.reads (s.getMaxPayload c)).1

def readEof (s : Looper) (c : ASocket) (os : Os) : Bool :=
  (readLoop os.reads (s.getMaxPayload c)).2

def Reads (s : Looper) (a : Action) (r : Ref) (data : Bytes) : Prop :=
  ∃ c ev os, s.Dispatches a r c ev os ∧ s.readData c os = data ∧ data ≠ []

-- The end of the fd of `r` is read while the socket is closing and has still data in its queue.
def Drops (s : Looper) (a : Action) (r : Ref) : Prop :=
  ∃ c ev os, s.Dispatches a r c ev os ∧ c.closing ∧ s.readEof c os ∧ (c.flushed r ev os).fdFull

def Requests (s : Looper) (a : Action) (ss : Ref) (d : ASocket) (os : Os) (request : SmartRequest) :
    Prop :=
  ∃ r c ev, s.Dispatches a r c ev os ∧ c.peer = some ss ∧ s.sock ss = some d ∧
    d.ops = .smartSocket ∧ s.readData c os ≠ [] ∧
    SmartRequest.parse (d.smartSocketData ++ s.readData c os) = request

def Selects (s : Looper) (a : Action) (ss : Ref) (t : Tid) : Prop :=
  ∃ d os request, s.Requests a ss d os (.host request) ∧
    os.handleHostRequest request = .switchedTransport t

-- An `OKAY` from the transport `t` is taken for the socket `r`.
def Acks (s : Looper) (a : Action) (r : Ref) (t : Tid) (n : Option Int) : Prop :=
  ∃ p os c, a = .packet t p os ∧ p.kind = some .okay ∧ (s.transports t).online ∧ p.arg0 ≠ 0 ∧
    p.arg1 ≠ 0 ∧ s.findLocalSocket p.arg1 0 = some r ∧ ackedBytes p.toApacket = some n ∧
    s.sock r = some c ∧ (c.peer = none ∨ (s.peerOf c).any (·.id == p.arg0))

-- The socket that an `OKAY`, `CLSE` or `WRTE` packet is taken for, if there is one.
def addressee (s : Looper) (t : Tid) (p : Apacket) : Option Ref :=
  if (s.transports t).online && p.arg1 != 0 then
    match p.kind with
    | some .okay =>
      if p.arg0 = 0 || (ackedBytes p).isNone then none
      else (s.findLocalSocket p.arg1 0).filter fun r =>
        (s.sock r).any fun c => c.peer.isNone || (s.peerOf c).any (·.id == p.arg0)
    | some .clse =>
      (s.findLocalSocket p.arg1 p.arg0).filter fun r =>
        p.arg0 != 0 || ((s.sock r).bind s.peerOf).all (·.transport == some t)
    | some .wrte => if p.arg0 = 0 then none else s.findLocalSocket p.arg1 p.arg0
    | _ => none
  else none

def Pending (s : Looper) (r : Ref) : Prop :=
  ∃ c, s.sock r = some c ∧ c.peer = none

-- The first `OKAY` for a stream with delayed acknowledgements leaves it without credit.
def WeakGrant (s : Looper) (a : Action) (r : Ref) : Prop :=
  ∃ t n c, s.Acks a r t n ∧ s.sock r = some c ∧ c.peer = none ∧
    ¬(c.credited n s.delayedAckBytes).all (0 < ·)

def OpenAborts (s : Looper) (t : Tid) (destination : Bytes) : Prop :=
  match (s.transports t).updateReverseConfig destination with
  | none    => True
  | some tr =>
    ¬(UInt32.ofNat (destination.length + 1)).toNat ≤ min Apacket.maxPayload tr.maxPayload

theorem openAborts_congr {s s' : Looper} (h : s'.transports = s.transports) :
    s'.OpenAborts t destination ↔ s.OpenAborts t destination := by
  simp only [OpenAborts, h]

def IdsExhausted (s : Looper) : Prop :=
  s.localSocketNextId + 1 = 0

instance {s : Looper} : Decidable s.IdsExhausted :=
  inferInstanceAs (Decidable (_ = _))

def PacketAborts (s : Looper) (t : Tid) (p : Apacket) (os : Os) : Prop :=
  let tr := s.transports t
  match p.kind with
  | some .auth =>
    tr.useTls = false ∧ p.arg0 = adbAuthToken ∧ (tr.nextKey s.keys).key = none ∧ os.androidDir = false
  | some .open =>
    tr.online ∧ p.arg0 ≠ 0 ∧ tr.delayedAck = (p.arg1 != 0) ∧
      (p.payload = [] ∨ tr.isReverseConfigured (p.payload.cString os.beyond) = false ∨
        os.serviceToFd p.payload.stripTrailingNulls ∧ s.IdsExhausted)
  | _ => False

def Fatal (s : Looper) (d : ASocket) (os : Os) : SmartRequest → Prop
  | .host request       =>
    os.handleHostRequest request = .unhandled ∧
      hostServiceToSocket request.service = .localSocket ∧ s.IdsExhausted
  | .device destination =>
    ∃ t, d.transport = some t ∧ connectionStateIsOnline (s.transports t).connectionState ∧
      s.OpenAborts t destination
  | _                   => False

theorem Fatal.congr {s s' : Looper} (ht : s'.transports = s.transports)
    (hi : s'.localSocketNextId = s.localSocketNextId) :
    s'.Fatal d os request ↔ s.Fatal d os request := by
  cases request <;> simp [Fatal, IdsExhausted, ht, hi, openAborts_congr ht]

def RequestAborts (s : Looper) (a : Action) : Prop :=
  ∃ ss d os request, s.Requests a ss d os request ∧ s.Fatal d os request

def Aborts (s : Looper) (a : Action) : Prop :=
  match a with
  | .packet t p os         => s.PacketAborts t p.toApacket os
  | .openService t service => s.IdsExhausted ∨ s.OpenAborts t service
  | .accept                => s.IdsExhausted
  | .tlsHandshake t        =>
    (s.transports t).key = none ∧ ((s.transports t).nextKey s.keys).key = none
  | .dispatch _            => s.RequestAborts a
  | _                      => False

-- A socket with a remote peer is made ready only after an `OKAY` or the device's `OPEN`.
def MayBeReady (s : Looper) (a : Action) (s' : Looper) (r : Ref) : Prop :=
  ∀ c p d, s'.sock r = some c → c.peer = some p → s'.sock p = some d → d.ops = .remoteSocket →
    (s'.history r).permitted ∧ ∀ x, c.availableSendBytes = some x → 0 < x ∨ s.WeakGrant a r

-- The socket's peer is a remote socket, so that what is read from the socket goes to the device.
def remotePeer (s : Looper) (r : Ref) : Bool :=
  ((s.sock r).bind s.peerOf).any (·.ops == .remoteSocket)

-- A `WRTE` packet is taken for the socket `r`.
def Receives (s : Looper) (a : Action) (r : Ref) (data : Bytes) : Prop :=
  ∃ t p os, a = .packet t p os ∧ p.kind = some .wrte ∧ p.payload = data ∧ p.arg0 ≠ 0 ∧
    s.findLocalSocket p.arg1 p.arg0 = some r

structure SameCredit (s s' : Looper) (r : Ref) : Prop where
  sock    : s'.sock r = s.sock r
  window  : s'.delayedAckBytes = s.delayedAckBytes
  history : s'.history r = s.history r

-- The device's `OPEN` is answered by a new stream.
def accepts (s : Looper) (t : Tid) (p : Apacket) (os : Os) : Bool :=
  let tr := s.transports t
  p.kind = some .open && tr.online && p.arg0 != 0 && tr.delayedAck == (p.arg1 != 0) &&
    p.payload ≠ [] && tr.isReverseConfigured (p.payload.cString os.beyond) &&
    os.serviceToFd p.payload.stripTrailingNulls

-- A stream to the transport is opened for the client of a smart socket, while the transport is
-- online, or for a service.
def Opens (s : Looper) (a : Action) (r : Ref) (t : Tid) : Prop :=
  s.belongs t r ∧ connectionStateIsOnline (s.transports t).connectionState ∨
    s.sockets.next ≤ r ∧ ∃ service, a = .openService t service

theorem Opens.belongs_or_new (h : Opens s a r t) : s.belongs t r ∨ s.sockets.next ≤ r :=
  h.imp And.left And.left

def connected (tr : ATransport) (p : Apacket) : ATransport :=
  { (tr.updateVersion p.arg0 p.arg1).parseBanner p.payload with online := true }

-- The action can change the state of the transport's connection.
def Reconnects (a : Action) (t : Tid) : Prop :=
  (∃ p os, a = .packet t p os ∧ (p.kind = some .cnxn ∨ p.kind = some .auth)) ∨
    ∃ kicked, a = .handleError t kicked

-- What may become of a transport. The state of its connection changes only with its own packets and
-- errors, and its features only with a `CNXN`.
inductive Rewrites (s : Looper) (a : Action) (s' : Looper) (t : Tid) (tr : ATransport) : Prop
  | keep (h : linkOf tr = linkOf (s'.transports t))
  | move (ha : Reconnects a t) (hd : tr.delayedAck = (s'.transports t).delayedAck)
  | connect (ha : a = .packet t p os) (hk : p.kind = some .cnxn) (hs : s' = s.handleOffline t)
    (htr : tr = connected (s'.transports t) p.toApacket)

-- The acts of the step that takes `a` in the state `s`; `s'` is the state right before the act.
def Allowed (s : Looper) (a : Action) (s' : Looper) : Act → Prop
  | .link r p              =>
    s.sockets.next ≤ p ∧ (s.sockets.next ≤ r ∨ ∀ d, s'.sock p = some d → d.transport = none)
  | .attach r p t n        =>
    s.Acks a r t n ∧ s.Pending r ∧ s.sockets.next ≤ p ∧ s.SameCredit s' r
  | .socket r (.acked n)   => (∃ t, s.Acks a r t n) ∧ s.SameCredit s' r
  | .socket r .ready       => s.MayBeReady a s' r
  | .socket r (.accepted t n) =>
    s.sockets.next ≤ r ∧ s'.delayedAckBytes = s.delayedAckBytes ∧
      ∃ p os, a = .packet t p os ∧ s.accepts t p.toApacket os ∧ p.arg1 = n
  | .socket r (.opened t)  => s.Opens a r t
  | .socket r (.bind t)    => s.Opens a r t ∧ s'.aborted.isSome
  | .socket ss (.switch t) =>
    s.Selects a ss t ∧ (s'.sock ss).bind (·.peer) = (s.sock ss).bind (·.peer)
  | .socket r (.receive (some data)) =>
    s'.remotePeer r → s.Receives a r data ∧ s'.history r = s.history r
  | .socket r (.forward _ data) =>
    s.Reads a r data ∧ s.remotePeer r ∧ (s'.history r).writes = (s.history r).writes
  | .socket r (.relay data)     => s.Reads a r data
  | .socket r (.discard data)   => s.Reads a r data ∧ s.Pending r
  | .drop r                => s.Drops a r
  | .transport t tr        => s.Rewrites a s' t tr
  | .setWindow w           => ∃ w', a = .setDelayedAckBytes w' ∧ w = max w' (64 * 1024)
  | .abort x               => s.Aborts a ∧ x ≠ .closingNotArmed
  | _                      => True

end Looper

-- The socket, its peer and the sockets that do not exist yet.
def Looper.Near (s : Looper) (r n : Ref) : Prop :=
  n = r ∨ (s.sock r).bind (·.peer) = some n ∨ s.sockets.next ≤ n

def Looper.Serves (s : Looper) (a : Action) (target : Option Ref) (s' : Looper) (b : Act) : Prop :=
  s.Allowed a s' b ∧ ∀ n ∈ b.touches, ∃ r, target = some r ∧ s.Near r n

-- The acts that no condition is put on.
def Act.Routine : Act → Prop
  | .create _ | .unlink _ _ | .finish _ _ | .retire _ _ | .release _ | .destroy _ | .linger _ | .poll
  | .other => True
  | .socket _ a =>
    match a with
    | .restore | .receive none | .pause | .hangUp | .tend => True
    | _ => False
  | _ => False

namespace Looper

theorem Allowed.of_routine (h : b.Routine) : Allowed s a s' b := by
  cases b
  case socket r b =>
    cases b
    case receive data => cases data <;> simp_all [Act.Routine, Allowed]
    all_goals simp_all [Act.Routine, Allowed]
  all_goals simp_all [Act.Routine, Allowed]

end Looper

theorem Act.Closes.routine {a : Act} (h : a.Closes R (fun _ => False)) : a.Routine := by
  cases a
  case socket r a => cases a <;> simp_all [Closes, Routine]
  all_goals simp_all [Closes, Routine]

theorem Looper.Flushes.routine (h : Looper.Flushes s r none s' a) : a.Routine := by
  rcases h with h | h
  · simp [h, Act.Routine]
  · exact h.routine

theorem Act.Closes.allowed {s s' : Looper} {a : Looper.Action} {b : Act}
    (h : b.Closes R (s.Drops a)) : s.Allowed a s' b := by
  cases b
  case socket r b => cases b <;> simp_all [Closes, Looper.Allowed]
  all_goals simp_all [Closes, Looper.Allowed]

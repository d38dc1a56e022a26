import LibAdb.Execution.SmartSocket

def tokenSize : Nat := 20

def authSign (key : Key) (token : Bytes) (os : Os) : Bytes :=
  if token.length = tokenSize then os.rsaSign key token else []

namespace Looper

def handleOffline (s : Looper) (t : Tid) : Looper :=
  let tr := s.transports t
  if tr.connectionState = .offline then s
  else (s.setTransport t { tr with connectionState := .offline, online := false }).closeAllSockets t

-- Finding the public key needs the user's key directory, which the process cannot do without.
def sendAuthPublickey (s : Looper) (t : Tid) (os : Os) : Looper :=
  if !os.androidDir then s.abort .noAndroidDir
  else if os.userKey = [] || os.userKey.length ≥ Apacket.maxPayloadV1 then s
  else s.sendPacket none t (.make .auth adbAuthRsaPublicKey 0 (os.userKey ++ [0]))

def sendAuthResponse (s : Looper) (t : Tid) (token : Bytes) (os : Os) : Looper :=
  let tr := (s.transports t).nextKey s.keys
  match tr.key with
  | none =>
    (s.setTransport t { tr with connectionState := .unauthorized }).sendAuthPublickey t os
  | some key =>
    let s := s.setTransport t tr
    let result := authSign key token os
    if result = [] then s else s.sendPacket none t (.make .auth adbAuthSignature 0 result)

def handleNewConnection (s : Looper) (t : Tid) (p : Apacket) : Looper :=
  let s := s.handleOffline t
  let tr := ((s.transports t).updateVersion p.arg0 p.arg1).parseBanner p.payload
  s.setTransport t { tr with online := true }

def handleStls (s : Looper) (t : Tid) : Looper :=
  let tr := s.transports t
  (s.setTransport t { tr with useTls := true, handshakes := tr.handshakes + 1 }).sendPacket none t
    (.make .stls aStlsVersion 0 [])

-- Setting the state to offline first makes `handle_offline` return at once.
def handleAuth (s : Looper) (t : Tid) (p : Apacket) (os : Os) : Looper :=
  let tr := s.transports t
  if tr.useTls then s
  else if p.arg0 = adbAuthToken then
    (s.setTransport t { tr with connectionState := .authorizing }).sendAuthResponse t p.payload os
  else (s.setTransport t { tr with connectionState := .offline }).handleOffline t

-- The local socket that serves an accepted `OPEN`.
def acceptOpen (s : Looper) (t : Tid) (p : Apacket) : Looper :=
  let (s, r) := s.createLocalSocket (some t)
  let (s, peer) := s.createRemoteSocket p.arg0 t
  let s := (s.link r peer).emit [.accepted r]
  match s.sock r with
  | none => s
  | some c =>
    let s :=
      if (s.transports t).delayedAck then
        (s.put r { c with availableSendBytes := some p.arg1.toNat }).sendReady (some r) c.id p.arg0 t
          s.delayedAckBytes.toUInt32
      else s.sendReady (some r) c.id p.arg0 t 0
    s.localSocketReady r

-- `address.data()` is passed on as a C string. It is the null pointer when the payload is empty.
def handleOpen (s : Looper) (t : Tid) (p : Apacket) (os : Os) : Looper :=
  let tr := s.transports t
  if !tr.online || p.arg0 = 0 then s
  else if tr.delayedAck != (p.arg1 != 0) then s.sendClose 0 p.arg0 t
  else if p.payload = [] then s.abort .nullAddress
  else if !tr.isReverseConfigured (p.payload.cString os.beyond) then s.abort .disallowedConnect
  else if !os.serviceToFd p.payload.stripTrailingNulls then s.sendClose 0 p.arg0 t
  else s.acceptOpen t p

-- The bytes that an `OKAY` acknowledges: `none` if its payload is invalid, `some none` if it has none.
def ackedBytes (p : Apacket) : Option (Option Int) :=
  if p.payload = [] then some none
  else (UInt32.ofBytes p.payload).map fun n => some n.toInt32.toInt

-- On the first `OKAY`, the connection is created.
def attach (s : Looper) (r : Ref) (t : Tid) (id : UInt32) (acked : Option Int) : Looper :=
  let (s, peer) := s.createRemoteSocket id t
  ((s.link r peer).localSocketAck r acked).localSocketReady r

def handleOkay (s : Looper) (t : Tid) (p : Apacket) : Looper :=
  if !(s.transports t).online || p.arg0 = 0 || p.arg1 = 0 then s
  else
    match s.findLocalSocket p.arg1 0 with
    | none => s.sendClose p.arg1 p.arg0 t
    | some r =>
      match s.sock r, ackedBytes p with
      | some c, some acked =>
        match c.peer with
        | none => s.attach r t p.arg0 acked
        | some peer =>
          if (s.sock peer).any (·.id == p.arg0) then s.localSocketAck r acked else s
      | _, _ => s

def handleClse (s : Looper) (t : Tid) (p : Apacket) : Looper :=
  if !(s.transports t).online || p.arg1 = 0 then s
  else
    match s.findLocalSocket p.arg1 p.arg0 with
    | none => s
    | some r =>
      if p.arg0 = 0 && ((s.sock r).bind s.peerOf).any (·.transport != some t) then s
      else (s.emit [.closedByRemote r]).close r

def handleWrte (s : Looper) (t : Tid) (p : Apacket) (os : Os) : Looper :=
  if !(s.transports t).online || p.arg0 = 0 || p.arg1 = 0 then s
  else
    match s.findLocalSocket p.arg1 p.arg0 with
    | none   => s
    | some r => (s.localSocketEnqueue r p.payload os.writev).1

def handlePacket (s : Looper) (t : Tid) (p : Apacket) (os : Os) : Looper :=
  if p.payload.length ≠ p.dataLength.toNat then s.abort .payloadMismatch
  else
    match p.kind with
    | some .cnxn => s.handleNewConnection t p
    | some .stls => s.handleStls t
    | some .auth => s.handleAuth t p os
    | some .open => s.handleOpen t p os
    | some .okay => s.handleOkay t p
    | some .clse => s.handleClse t p
    | some .wrte => s.handleWrte t p os
    | some .sync | none => s

-- The thread of `adb_auth_tls_handshake`, up to the handshake itself.
def tlsHandshake (s : Looper) (t : Tid) : Looper :=
  let tr := s.transports t
  let tr := { tr with handshakes := tr.handshakes - 1 }
  if tr.key.isSome then s.setTransport t tr
  else
    let tr := tr.nextKey s.keys
    let s := s.setTransport t tr
    if tr.key.isSome then s else s.abort .noHandshakeKey

end Looper

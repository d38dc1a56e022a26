import LibAdb.Execution.Sockets

def hexValue (c : UInt8) : Option UInt32 :=
  if 48 ≤ c ∧ c ≤ 57 then some (c.toUInt32 - 48)
  else if 97 ≤ c ∧ c ≤ 102 then some (c.toUInt32 - 97 + 10)
  else if 65 ≤ c ∧ c ≤ 70 then some (c.toUInt32 - 65 + 10)
  else none

def unhex (s : Bytes) : UInt32 :=
  (s.foldlM (fun (n : UInt32) c => (hexValue c).map (n <<< 4 ||| ·)) 0).getD 0xffffffff

def isDigit (c : UInt8) : Bool :=
  48 ≤ c && c ≤ 57

-- `ParseUint` for a 64-bit transport id: the value of the leading digits and what follows them.
def parseUint (s : Bytes) : Option (Nat × Bytes) :=
  let digits := s.takeWhile isDigit
  let value := digits.foldl (fun n c => 10 * n + (c.toNat - 48)) 0
  if digits = [] || value ≥ 0x10000000000000000 then none else some (value, s.dropWhile isDigit)

-- The answer of `parse_host_service`; `checkFailed` is its `CHECK_EQ(':', serial.back())`.
inductive HostService where
  | invalid
  | parsed (serial command : Bytes)
  | checkFailed
  deriving DecidableEq, Repr

namespace HostService

-- The parser splits the string at `k`: the first `k` bytes are `serial`, the others `command`.
def finish (full : Bytes) (k : Nat) : HostService :=
  let serial := full.take k
  let command := full.drop k
  if serial = [] || command = [] then .invalid
  else if serial.getLast? = some 58 then .parsed serial.dropLast command
  else .checkFailed

def port (full : Bytes) (k : Nat) : HostService :=
  match (full.drop k).findIdx? (· == 58) with
  | none => finish full k
  | some next =>
    if ((full.drop k).take next).all isDigit then finish full (k + next + 1) else finish full k

def toColon (full : Bytes) (k : Nat) : Option Nat :=
  ((full.drop k).findIdx? (· == 58)).map (k + · + 1)

-- An IPv6 address in brackets has to be followed by a colon. A bracket that is not closed is read
-- like any other address.
def address (full : Bytes) (k : Nat) : Option Nat :=
  match full.drop k with
  | 91 :: _ =>
    match (full.drop k).findIdx? (· == 93) with
    | none => toColon full k
    | some e =>
      match full.drop (k + e + 1) with
      | 58 :: _ => some (k + e + 1 + 1)
      | _ => none
  | _ => toColon full k

def prefixes : List Bytes :=
  ["usb:", "product:", "model:", "device:", "localfilesystem:"].map ascii

def parse (full : Bytes) : HostService :=
  if full = [] then .invalid
  else
    match prefixes.find? (·.isPrefixOf full) with
    | some p => ((toColon full p.length).map (finish full)).getD .invalid
    | none =>
      let protocol := (ascii "tcp:").isPrefixOf full || (ascii "udp:").isPrefixOf full
      let k := if protocol then 4 else 0
      if protocol && full.drop k = [] then .invalid
      else
        let k := if (ascii "vsock:").isPrefixOf (full.drop k) then k + 6 else k
        ((address full k).map (port full)).getD .invalid

end HostService

inductive TransportType where
  | any
  | usb
  | loc
  deriving DecidableEq, Repr

structure HostRequest where
  service     : Bytes
  type        : TransportType := .any
  serial      : Bytes := []
  transportId : Nat := 0
  deriving DecidableEq, Repr

-- What `handle_host_request` answers. Switching the transport sets the transport of the smart socket.
inductive HostRequestResult where
  | handled
  | switchedTransport (t : Tid)
  | unhandled
  deriving DecidableEq, Repr

-- What the data collected by a smart socket asks for. `rejected` is the `return -1` that does not
-- close the socket.
inductive SmartRequest where
  | incomplete
  | malformed
  | rejected
  | checkFailed
  | host (request : HostRequest)
  | device (destination : Bytes)
  deriving DecidableEq, Repr

namespace SmartRequest

-- A request that is empty after its prefix is passed on to the device with the prefix.
def hostOr (service : Bytes) (request : HostRequest) : SmartRequest :=
  if request.service = [] then .device service else .host request

def ofService (service : Bytes) : SmartRequest :=
  match service.consumePrefix "host-serial:" with
  | some rest =>
    match HostService.parse rest with
    | .parsed serial command => hostOr service { service := command, serial }
    | .invalid => .malformed
    | .checkFailed => .checkFailed
  | none =>
    match service.consumePrefix "host-transport-id:" with
    | some rest =>
      match parseUint rest with
      | some (transportId, 58 :: rest) => hostOr service { service := rest, transportId }
      | _ => .rejected
    | none =>
      match service.consumePrefix "host-usb:" with
      | some rest => hostOr service { service := rest, type := .usb }
      | none =>
        match service.consumePrefix "host-local:" with
        | some rest => hostOr service { service := rest, type := .loc }
        | none =>
          match service.consumePrefix "host:" with
          | some rest => hostOr service { service := rest }
          | none => .device service

-- The byte after the announced length is overwritten by a NUL. What was sent after it stays part of
-- the service string.
def parse (data : Bytes) : SmartRequest :=
  if data.length < 4 then .incomplete
  else
    let len := (unhex (data.take 4)).toNat
    if len = 0 || len > Apacket.maxPayload then .malformed
    else if len + 4 > data.length then .incomplete
    else ofService ((data.set (len + 4) 0).drop 4)

end SmartRequest

inductive HostServiceSocket where
  | none
  | localSocket
  | deviceTracker
  deriving DecidableEq, Repr

def hostServiceToSocket (name : Bytes) : HostServiceSocket :=
  if name = ascii "track-devices" || name = ascii "track-devices-l" ||
      name = ascii "track-devices-proto-binary" || name = ascii "track-devices-proto-text" then
    .deviceTracker
  else if (name.consumePrefix "wait-for-").isSome || (name.consumePrefix "connect:").isSome then
    .localSocket
  else
    match name.consumePrefix "pair:" with
    | some rest => if 58 ∈ rest.cString [] then .localSocket else .none
    | none => .none

-- What the operating system and the parts of the program outside of this model answer during one
-- step of the looper.
structure Os where
  writev            : Ref → Bytes → WriteResult := fun _ bs => .wrote bs.length
  reads             : List ReadResult := []
  serviceToFd       : Bytes → Bool := fun _ => true
  -- The memory behind a packet's payload buffer.
  beyond            : Bytes := []
  handleHostRequest : HostRequest → HostRequestResult := fun _ => .handled
  listTransports    : Bytes := []
  rsaSign           : Key → Bytes → Bytes := fun _ _ => []
  androidDir        : Bool := true
  userKey           : Bytes := []

namespace Looper

def createDeviceTracker (s : Looper) : Looper × Ref :=
  let c : ASocket := { ops := .deviceTracker, updateNeeded := true }
  ({ s with sockets := s.sockets.alloc c }, s.sockets.next)

-- The peer of a tracker is the local socket of the client that asked for it.
def deviceTrackerSend (s : Looper) (r : Ref) (os : Os) : Looper :=
  match (s.sock r).bind (·.peer) with
  | none => s
  | some p =>
    let data := (hexDigits os.listTransports.length).take 4 ++ os.listTransports
    (s.localSocketEnqueue p data os.writev).1

def deviceTrackerReady (s : Looper) (r : Ref) (os : Os) : Looper :=
  match s.sock r with
  | none => s
  | some c =>
    if c.updateNeeded then (s.put r { c with updateNeeded := false }).deviceTrackerSend r os else s

-- A host service takes the place of the smart socket `ss` as the peer of the client's socket `r`.
def connectToService (s : Looper) (ss r : Ref) (service : Bytes) (os : Os) : Looper × EnqueueResult :=
  match hostServiceToSocket service with
  | .none =>
    let text := ascii "unknown host service '" ++ service ++ ascii "'"
    ((s.sendStatus r (failStatus text)).close ss, .error)
  | .localSocket =>
    let (s, s2) := s.createLocalSocket none
    let s := (((s.sendStatus r (ascii "OKAY")).restoreOps r).unlink ss r).link r s2
    ((s.close ss).localSocketReady s2, .accepted)
  | .deviceTracker =>
    let (s, s2) := s.createDeviceTracker
    let s := (((s.sendStatus r (ascii "OKAY")).restoreOps r).unlink ss r).link r s2
    ((s.close ss).deviceTrackerReady s2 os, .accepted)

-- The client's socket `r` is detached from the smart socket `ss` and asks the device for the service.
def connectToDevice (s : Looper) (ss r : Ref) (t : Tid) (destination : Bytes) : Looper :=
  let s := s.unlink ss r
  match s.sock r with
  | none => s
  | some c =>
    let s := s.put r { c with ops := .localNotify, transport := some t }
    (s.connectToRemote r destination).close ss

def smartSocketEnqueue (s : Looper) (ss : Ref) (data : Bytes) (os : Os) : Looper × EnqueueResult :=
  match s.sock ss with
  | none => (s, .error)
  | some c =>
    let c := { c with smartSocketData := c.smartSocketData ++ data }
    let s := s.put ss c
    match c.peer with
    | none => (s, .error)
    | some r =>
      match SmartRequest.parse c.smartSocketData with
      | .incomplete => (s, .accepted)
      | .malformed => (s.close ss, .error)
      | .rejected => (s, .error)
      | .checkFailed => (s.abort .serialNotTerminated, .error)
      | .host request =>
        match os.handleHostRequest request with
        | .handled => (s.close ss, .error)
        | .switchedTransport t =>
          (s.put ss { c with smartSocketData := [], transport := some t }, .accepted)
        | .unhandled => s.connectToService ss r request.service os
      | .device destination =>
        match c.transport with
        | none =>
          ((s.sendStatus r (failStatus (ascii "device offline (no transport)"))).close ss, .error)
        | some t =>
          if connectionStateIsOnline (s.transports t).connectionState then
            (s.connectToDevice ss r t destination, .full)
          else
            ((s.sendStatus r (failStatus (ascii "device offline (transport offline)"))).close ss, .error)

-- `connect_to_smartsocket`, called for each connection that the smart socket listener accepts.
def connectToSmartsocket (s : Looper) (r : Ref) : Looper :=
  let ss := s.sockets.next
  let s := { s with sockets := s.sockets.alloc { ops := .smartSocket } }
  (s.link r ss).localSocketReady r

end Looper

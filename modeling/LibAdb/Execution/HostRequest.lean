import LibAdb.Execution.Listeners
import LibAdb.Execution.Selection

-- What a request to the server itself makes it do, and what the client is sent for it.

inductive HostAction where
  | sendOkay
  | sendFail (reason : Bytes)
  | sendProtocolString (text : Bytes)
  | writeTransportId (id : Nat)
  | kick (t : Nat) (reset : Bool)
  | reset (t : Nat)
  | kickAllTcpDevices
  | localConnect (port : Nat)
  | attach (t : Nat)
  | detach (t : Nat)
  | exit
  deriving DecidableEq, Repr

def HostAction.isReply : HostAction → Bool
  | sendOkay | sendFail _ | sendProtocolString _ | writeTransportId _ => true
  | _ => false

-- What a round of `wait_service` finds: the transports, and whether the client has gone.
structure WaitRound where
  transports : List ListedTransport
  gone       : Bool

-- The server as a request finds it, with what other parts of it answer. `transport` is the one of the
-- client's socket.
structure HostServer where
  rejectKillServer : Bool := false
  shouldUseLibusb  : Bool := false
  env              : HostEnvironment := {}
  transports       : List ListedTransport := []
  transport        : Option ListedTransport := none
  server           : Server := {}
  -- What `socket_spec_listen` answers, and the errors of `Connection::Attach` and `Detach`.
  listen           : Except Bytes Int := .ok 0
  attachError      : ListedTransport → Option Bytes := fun _ => none
  detachError      : ListedTransport → Option Bytes := fun _ => none
  -- The texts of `list_transports`, of `ParseNetAddress` for an address that it rejects and of
  -- `connect_service`.
  listTransports   : Bool → Bytes := fun _ => []
  addressError     : Bytes → Bytes := fun _ => []
  connectResponse  : Bytes → Bytes := fun _ => []
  -- What a service sees after the request: the device lists for a tracker and the rounds of a wait.
  updates          : List Bytes := []
  rounds           : List WaitRound := []

-- The string that `c_str()` is read as.
def Bytes.toCString (s : Bytes) : Bytes :=
  s.takeWhile (· != 0)

def ATransport.serialName (t : ATransport) : Bytes :=
  if t.serial = [] then ascii "<unknown>" else t.serial

def HostEnvironment.stateText (env : HostEnvironment) : ConnectionState → Bytes
  | .offline => ascii "offline"
  | .bootloader => ascii "bootloader"
  | .device => ascii "device"
  | .host => ascii "host"
  | .recovery => ascii "recovery"
  | .rescue => ascii "rescue"
  | .noPerm => env.usbNoPermissionsShortHelpText
  | .sideload => ascii "sideload"
  | .unauthorized => ascii "unauthorized"
  | .authorizing => ascii "authorizing"
  | .connecting => ascii "connecting"
  | .detached => ascii "unknown"

namespace HostRequest

variable (q : HostRequest)

def transportRequest : TransportRequest where
  type        := some q.type
  serial      := if q.serial = [] then none else some q.serial.toCString
  transportId := q.transportId

-- The request for a transport, and whether its id is sent back. The type of the request itself does
-- not count. Without a request the transport id is invalid.
def selection : Option (TransportRequest × Bool) :=
  let outer := { q.transportRequest with type := some .any }
  match q.service.consumePrefix "tport:" with
  | some rest =>
    match rest.consumePrefix "serial:" with
    | some serial => some ({ outer with serial := some (Bytes.toCString serial) }, true)
    | none =>
      let type : TransportType :=
        if rest = ascii "usb" then .usb else if rest = ascii "local" then .loc else .any
      some ({ outer with type := some type }, true)
  | none =>
    match q.service.consumePrefix "transport-id:", q.service.consumePrefix "transport:" with
    | some rest, _ =>
      ((parseUint rest).filter (·.2 = [])).map fun n => ({ outer with transportId := n.1 }, false)
    | none, some serial => some ({ outer with serial := some (Bytes.toCString serial) }, false)
    | none, none =>
      let type : TransportType :=
        if q.service = ascii "transport-usb" then .usb
        else if q.service = ascii "transport-local" then .loc
        else .any
      some ({ outer with type := some type }, false)

end HostRequest

namespace HostServer

abbrev Handled := List HostAction × HostRequestResult

variable (h : HostServer) (q : HostRequest)

def acquire (r : TransportRequest) : Except Bytes ListedTransport :=
  let acquired := r.acquireOneTransport h.env h.transports
  acquired.result.elim (.error acquired.error) .ok

-- The transport of the socket comes before the one of the request.
def transportOr (acceptAnyState : Bool) : Except Bytes ListedTransport :=
  h.transport.elim (h.acquire { q.transportRequest with acceptAnyState }) .ok

def okayText (text : Bytes) : List HostAction :=
  [.sendOkay, .sendProtocolString text]

def reportOn (text : ListedTransport → Bytes) : List HostAction :=
  match h.transportOr q false with
  | .ok t => okayText (text t)
  | .error error => [.sendFail error]

-- `StringPrintf` of an address in its canonical form.
def canonicalAddress (address host : Bytes) (port : Int) : Bytes :=
  if address.head? = some 91 || 2 ≤ address.count 58 then
    ascii "[" ++ host.toCString ++ ascii "]:" ++ Bytes.decimal port
  else host.toCString ++ ascii ":" ++ Bytes.decimal port

def findTransport (serial : Bytes) : Option ListedTransport :=
  h.transports.find? fun t => serial.toCString = Bytes.toCString t.serial

def disconnect (address : Bytes) : List HostAction :=
  let done (t : ListedTransport) : List HostAction :=
    .kick t.id false :: okayText (ascii "disconnected " ++ address.toCString)
  if address = [] then .kickAllTcpDevices :: okayText (ascii "disconnected everything")
  else
    match h.findTransport address with
    | some t => done t
    | none =>
      let serial : Option Bytes :=
        if (ascii "vsock:").isPrefixOf address || (ascii "localfilesystem:").isPrefixOf address then
          some address
        else (parseNetAddress address 5555).map fun (host, port) => canonicalAddress address host port
      match serial with
      | none => [.sendFail (ascii "couldn't parse '" ++ address.toCString ++ ascii "': " ++
          h.addressError address)]
      | some serial =>
        match h.findTransport serial with
        | none => [.sendFail (ascii "no such device '" ++ serial.toCString ++ ascii "'")]
        | some t => done t

-- The errors of `atransport::Attach` and `Detach`.
def attachFailure (t : ListedTransport) : Option Bytes :=
  if !h.shouldUseLibusb then some (ascii "attach/detach only implemented for libusb backend")
  else if t.connectionState ≠ .detached then
    some (ascii "transport " ++ Bytes.toCString t.serial ++ ascii " is not detached")
  else h.attachError t

def detachFailure (t : ListedTransport) : Option Bytes :=
  if !h.shouldUseLibusb then some (ascii "attach/detach only implemented for libusb backend")
  else if t.connectionState = .detached then
    some (ascii "transport " ++ Bytes.toCString t.serial ++ ascii " is already detached")
  else h.detachError t

def perform (action : ListedTransport → HostAction) (failure : ListedTransport → Option Bytes)
    (done : Bytes) : List HostAction :=
  match h.transportOr q true with
  | .error error => [.sendFail error]
  | .ok t =>
    action t :: (failure t).elim (okayText (Bytes.toCString t.serialName ++ done)) fun error =>
      [.sendFail error]

section Handlers

-- The handlers in the order in which they are tried. Each one answers the services that it knows.
def handleSelection : Option Handled :=
  if (ascii "transport").isPrefixOf q.service || (ascii "tport:").isPrefixOf q.service then
    match q.selection with
    | none => some ([.sendFail (ascii "invalid transport id")], .handled)
    | some (r, reportsId) =>
      match h.acquire r with
      | .error error => some ([.sendFail error], .handled)
      | .ok t =>
        some (.sendOkay :: (if reportsId then [.writeTransportId t.id] else []),
          .switchedTransport t.id)
  else none

def handleDevices : Option Handled :=
  if q.service = ascii "devices" || q.service = ascii "devices-l" then
    some (okayText (h.listTransports (q.service = ascii "devices-l")), .handled)
  else none

def handleReconnectOffline : Option Handled :=
  if q.service = ascii "reconnect-offline" then
    let offline := h.transports.filter fun t => !connectionStateIsOnline t.connectionState
    let lines := offline.map fun t => ascii "reconnecting " ++ t.serialName
    some (offline.map (fun t => .reset t.id) ++ okayText (Bytes.join 10 lines), .handled)
  else none

def handleFeatures : Option Handled :=
  if q.service = ascii "features" then
    some (h.reportOn q fun t => featureSetToString t.features, .handled)
  else none

def handleHostFeatures : Option Handled :=
  if q.service = ascii "host-features" then
    let libusb := if h.shouldUseLibusb then [ascii "libusb"] else []
    some (okayText (featureSetToString (supportedFeatures ++ libusb ++ [ascii "push_sync"])),
      .handled)
  else none

def handleDisconnect : Option Handled :=
  (q.service.consumePrefix "disconnect:").map fun address => (h.disconnect address, .handled)

def handleVersion : Option Handled :=
  if q.service = ascii "version" then some (okayText (ascii "0029"), .handled) else none

def handleGetSerialno : Option Handled :=
  if q.service = ascii "get-serialno" then
    some (h.reportOn q fun t => if t.serial ≠ [] then t.serial else ascii "unknown", .handled)
  else none

def handleGetDevpath : Option Handled :=
  if q.service = ascii "get-devpath" then
    some (h.reportOn q fun t => if t.devpath ≠ [] then t.devpath else ascii "unknown", .handled)
  else none

def handleGetState : Option Handled :=
  if q.service = ascii "get-state" then
    some (h.reportOn q fun t => h.env.stateText t.connectionState, .handled)
  else none

-- No reply is sent.
def handleEmulator : Option Handled :=
  (q.service.consumePrefix "emulator:").map fun rest =>
    let port := (parseUint rest).filter fun n => n.2 = [] && n.1 < 0x100000000
    (port.toList.map fun n => .localConnect n.1, .handled)

def handleReconnect : Option Handled :=
  if q.service = ascii "reconnect" then
    match h.transportOr q true with
    | .error error => some (okayText error, .handled)
    | .ok t =>
      some (.kick t.id true :: okayText (ascii "reconnecting " ++ t.serialName ++ ascii " [" ++
        h.env.stateText t.connectionState ++ ascii "]\n"), .handled)
  else none

def handleAttach : Option Handled :=
  if q.service = ascii "attach" then
    some (h.perform q (fun t => .attach t.id) h.attachFailure (ascii " attached"), .handled)
  else none

def handleDetach : Option Handled :=
  if q.service = ascii "detach" then
    some (h.perform q (fun t => .detach t.id) h.detachFailure (ascii " detached"), .handled)
  else none

-- The error of the acquirer is lost.
def handleForward : Option Handled :=
  let transport : Except Bytes Tid := ((h.transportOr q false).map (·.id)).mapError fun _ => []
  (h.server.handleForwardRequest q.service.toCString transport h.listen).map fun (reply, _) =>
    (match reply with
      | .listeners text => okayText text
      | .okay port =>
        [.sendOkay, .sendOkay] ++ if port ≠ 0 then [.sendProtocolString (Bytes.decimal port)] else []
      | .fail message => [.sendFail message], .handled)

def handlers : List (Option Handled) :=
  [h.handleSelection q, h.handleDevices q, h.handleReconnectOffline q, h.handleFeatures q,
    h.handleHostFeatures q, h.handleDisconnect q, handleVersion q, h.handleGetSerialno q,
    h.handleGetDevpath q, h.handleGetState q, handleEmulator q, h.handleReconnect q,
    h.handleAttach q, h.handleDetach q, h.handleForward q]

end Handlers

-- A rejected `kill` is tried by the handlers as well. The result is `none` if the process ends.
def handleHostRequest : List HostAction × Option HostRequestResult :=
  if q.service = ascii "kill" && !h.rejectKillServer then ([.sendOkay, .exit], none)
  else
    let (actions, result) := ((h.handlers q).findSome? id).getD ([], .unhandled)
    if q.service = ascii "kill" then
      (.sendFail (ascii "kill-server rejected by remote server") :: actions, some result)
    else (actions, some result)

section Services

inductive WaitState where
  | any
  | disconnect
  | state (s : ConnectionState)
  deriving DecidableEq

def WaitState.parse (s : Bytes) : Option WaitState :=
  if s = ascii "device" then some (.state .device)
  else if s = ascii "recovery" then some (.state .recovery)
  else if s = ascii "rescue" then some (.state .rescue)
  else if s = ascii "sideload" then some (.state .sideload)
  else if s = ascii "bootloader" then some (.state .bootloader)
  else if s = ascii "any" then some .any
  else if s = ascii "disconnect" then some .disconnect
  else none

def WaitState.reached (t : Option ListedTransport) : WaitState → Bool
  | .disconnect => t.isNone
  | .any => t.isSome
  | .state s => t.any (·.connectionState = s)

def waitType (s : Bytes) : Option TransportType :=
  if s = ascii "local" then some .loc
  else if s = ascii "usb" then some .usb
  else if s = ascii "any" then some .any
  else none

def waitLoop (r : TransportRequest) (states : List WaitState) : List WaitRound → List HostAction
  | [] => []
  | round :: rounds =>
    let acquired := r.acquireOneTransport h.env round.transports
    if acquired.ambiguous then [.sendFail acquired.error]
    else if states.any (·.reached acquired.result) then [.sendOkay]
    else if round.gone then [.sendFail acquired.error]
    else waitLoop r states rounds

def waitService (spec : Bytes) : List HostAction :=
  match spec.splitOn 45 with
  | type :: first :: rest =>
    match waitType type, (first :: rest).mapM WaitState.parse with
    | none, _ => [.sendFail (ascii "bad wait-for- transport: " ++ spec)]
    | some _, none => [.sendFail (ascii "bad wait-for- state: " ++ spec)]
    | some type, some states =>
      h.waitLoop { q.transportRequest with type := some type } states h.rounds
  | _ => [.sendFail (ascii "short wait-for-: " ++ spec)]

-- What the service behind a local socket writes. Pairing fails without a reason.
def serviceOutput : List HostAction :=
  match q.service.consumePrefix "wait-for-", q.service.consumePrefix "connect:" with
  | some spec, _ => h.waitService q spec
  | none, some host => [.sendProtocolString (h.connectResponse host)]
  | none, none => [.sendFail []]

def connectToService : List HostAction :=
  match hostServiceToSocket q.service with
  | .none => [.sendFail (ascii "unknown host service '" ++ q.service ++ ascii "'")]
  | .localSocket => .sendOkay :: h.serviceOutput q
  | .deviceTracker => .sendOkay :: h.updates.map .sendProtocolString

end Services

-- The part of `smart_socket_enqueue` for requests to the server, with the service that follows.
def serve : List HostAction :=
  let (actions, result) := h.handleHostRequest q
  actions ++ if result = some .unhandled then h.connectToService q else []

end HostServer

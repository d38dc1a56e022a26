import LibAdb.Execution.Server
import LibAdb.Objects.Install

-- Port forwarding on the host.

inductive InstallStatus where
  | ok
  | internalError
  | cannotBind
  | cannotRebind
  | listenerNotFound
  deriving DecidableEq

-- The port is sent back if it is not 0.
inductive ForwardReply where
  | listeners (text : Bytes)
  | okay (resolvedTcpPort : Int)
  | fail (message : Bytes)
  deriving DecidableEq

inductive ForwardRequest where
  | listForward
  | killForwardAll
  | killForward (service : Bytes)
  | forward (noRebind : Bool) (service : Bytes)

namespace ForwardRequest

def parse (service : Bytes) : Option ForwardRequest :=
  if service = ascii "list-forward" then some listForward
  else if service = ascii "killforward-all" then some killForwardAll
  else
    match service.consumePrefix "killforward:", service.consumePrefix "forward:" with
    | some service, _ => some (killForward service)
    | none, some service =>
      match service.consumePrefix "norebind:" with
      | some service => some (forward true service)
      | none         => some (forward false service)
    | none, none => none

-- The format of the parameter is `<local>`.
def killForwardPieces (service : Bytes) : Option Bytes :=
  match service.splitOn 59 with
  | [name] => if name = [] then none else some name
  | _      => none

-- The format of the parameter is `<local>;<remote>`.
def forwardPieces (service : Bytes) : Option (Bytes × Bytes) :=
  match service.splitOn 59 with
  | [name, connectTo] =>
    if name = [] ∨ connectTo = [] ∨ connectTo.head? = some 42 then none else some (name, connectTo)
  | _ => none

def requested : ForwardRequest → Option Bytes
  | forward _ service => (forwardPieces service).map (·.1)
  | _ => none

end ForwardRequest

def ForwardReply.ofStatus (service : Bytes) (port : Int) (error : Bytes) : InstallStatus → ForwardReply
  | .ok               => okay port
  | .internalError    => fail (ascii "internal error")
  | .cannotBind       => fail (ascii "cannot bind listener: " ++ error)
  | .cannotRebind     => fail (ascii "cannot rebind existing socket")
  | .listenerNotFound => fail (ascii "listener '" ++ service ++ ascii "' not found")

def portName (port : Int) : Bytes :=
  ascii "tcp:" ++ Bytes.decimal port

-- What `socket_spec_listen` answers is an error or the port that it resolved, 0 if there is none. A
-- listener with a port is named after it.
def boundName (localName : Bytes) : Except Bytes Int → Option Bytes
  | .error _ => none
  | .ok port => some (if port = 0 then localName else portName port)

namespace Server

-- What `main.cpp` starts the server with is a listener for the clients, which has no transport.
def smartSocket (name : Bytes) : AListener :=
  { id := 0, localName := name, connectTo := ascii "*smartsocket*", transport := none }

def start (name : Option Bytes) : Server where
  listeners    := name.toList.map smartSocket
  nextListener := 1

def isInstalled (v : Server) (name : Bytes) : Bool :=
  v.listeners.any (·.localName == name)

def formatListeners (v : Server) : Bytes :=
  (v.listeners.filter (!·.isSmartSocket)).flatMap fun l =>
    let serial := ((l.transport.bind v.link).map (·.serial)).getD []
    (if serial ≠ [] then serial else ascii "(reverse)") ++ ascii " " ++ l.localName ++ ascii " " ++
      l.connectTo ++ ascii "\n"

-- What `install_listener` returns, with the port that it resolved and its error.
def installStatus (v : Server) (localName : Bytes) (noRebind : Bool) (answer : Except Bytes Int) :
    InstallStatus × Int × Bytes :=
  match v.listeners.find? (·.localName == localName), answer with
  | some l, _ =>
    if l.isSmartSocket then (.internalError, 0, ascii "cannot repurpose smartsocket")
    else if noRebind then (.cannotRebind, 0, ascii "cannot rebind")
    else (.ok, 0, [])
  | none, .error error => (.cannotBind, 0, error)
  | none, .ok port     => (.ok, port, [])

def removeStatus (v : Server) (localName : Bytes) : InstallStatus :=
  if v.isInstalled localName then .ok else .listenerNotFound

def performForward (v : Server) (t : Tid) (answer : Except Bytes Int) (noRebind : Bool)
    (service : Bytes) : ForwardReply × Server :=
  match ForwardRequest.forwardPieces service with
  | none => (.fail (ascii "bad forward: " ++ service), v)
  | some (name, connectTo) =>
    let (status, port, error) := v.installStatus name noRebind answer
    (.ofStatus service port error status,
      v.installListener name connectTo t noRebind (boundName name answer))

def performKillForward (v : Server) (service : Bytes) : ForwardReply × Server :=
  match ForwardRequest.killForwardPieces service with
  | none => (.fail (ascii "bad killforward: " ++ service), v)
  | some name => (.ofStatus service 0 [] (v.removeStatus name), v.removeListener name)

-- The service is read as a C string. The requests that are about one listener need a transport.
def handleForwardRequest (v : Server) (service : Bytes) (transport : Except Bytes Tid)
    (answer : Except Bytes Int) : Option (ForwardReply × Server) :=
  (ForwardRequest.parse service).map fun request =>
    match request, transport with
    | .listForward, _           => (.listeners v.formatListeners, v)
    | .killForwardAll, _        => (.okay 0, v.removeAllListeners)
    | .killForward _, .error e
    | .forward _ _, .error e    => (.fail e, v)
    | .killForward service, .ok _ => v.performKillForward service
    | .forward noRebind service, .ok t => v.performForward t answer noRebind service

end Server

-- The local name that a listener was requested with, and the port that was reported for it.
structure Grant where
  id        : Nat
  requested : Bytes
  reported  : Int

structure Forwarding where
  server  : Server
  granted : List Grant := []

namespace Forwarding

inductive Action where
  | request (service : Bytes) (transport : Except Bytes Tid) (answer : Except Bytes Int)
  | runDisconnects (t : Tid)

def grant (s : Forwarding) (service : Bytes) : ForwardReply → List Grant
  | .okay reported =>
    ((ForwardRequest.parse service).bind (·.requested)).toList.map fun requested =>
      let l := s.server.listeners.find? (·.localName == requested)
      { id := (l.map (·.id)).getD s.server.nextListener, requested, reported }
  | _ => []

def next (s : Forwarding) : Action → Option Forwarding
  | .request service transport answer =>
    (s.server.handleForwardRequest service transport answer).map fun (reply, server) =>
      { server, granted := s.granted ++ s.grant service reply }
  | .runDisconnects t => some { s with server := s.server.runDisconnects t }

def Reachable (name : Bytes) (P : Forwarding → Action → Prop) (s : Forwarding) : Prop :=
  Reach (fun s a s' => next s a = some s') P { server := .start (some name) } s

-- The request removes the listener for the clients, or installs one under a name that is taken.
def clashes (s : Forwarding) : Action → Bool
  | .request service (.ok _) answer =>
    match ForwardRequest.parse service with
    | some (.killForward service) =>
      s.server.listeners.any fun l =>
        l.isSmartSocket && ForwardRequest.killForwardPieces service == some l.localName
    | some (.forward _ service) =>
      (ForwardRequest.forwardPieces service).any fun (name, _) =>
        !s.server.isInstalled name && (boundName name answer).any s.server.isInstalled
    | _ => false
  | _ => false

end Forwarding

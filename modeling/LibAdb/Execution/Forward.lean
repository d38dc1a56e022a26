import LibAdb.Execution.Listeners

-- A transport and the device behind it, which handles its requests as a server does.
structure Reverse where
  transport : ATransport := {}
  device    : Server := {}

-- What the device listens on, and the address that the host is asked to connect to.
def Server.forwards (v : Server) : List (Bytes × Bytes) :=
  v.listeners.map fun l => (l.localName, l.connectTo)

namespace Reverse

-- The device's side of a service that is opened: it reads the service as a C string.
def openService (v : Server) (service : Bytes) (answer : Except Bytes Int) : Server :=
  match (Bytes.cString service []).consumePrefix "reverse:" with
  | none => v
  | some request => ((v.handleForwardRequest request (.ok 0) answer).map (·.2)).getD v

-- A service is opened through the transport. The device's `socket_spec_listen` gives the answer, if
-- it is called.
def next (s : Reverse) : Bytes × Except Bytes Int → Option Reverse
  | (service, answer) =>
    (s.transport.updateReverseConfig service).map fun transport =>
      { transport, device := openService s.device service answer }

end Reverse

import LibAdb.Execution.Loop

-- The calls of the library that open a service of a device.
inductive ServiceCall where
  | start (service : Bytes)
  | connectServiceSync (service : Bytes)
  | shell (command : Bytes) (forceRaw : Bool)
  deriving DecidableEq, Repr

-- What the calling thread finds: the transport that is registered under the device's serial when the
-- session is created and when it is started, whether `adb_socketpair` succeeds, the features of the
-- device and the value of `TERM`.
structure Caller where
  created    : Option Tid
  started    : Option Tid
  socketpair : Bool := true
  features   : List Bytes := []
  term       : Option Bytes := none

-- Either the call reports an error, or the task that it posted to the looper has run.
inductive SessionStart where
  | failed (error : Bytes)
  | started (t : Tid) (s : Looper)

namespace AdbDevice

def shellService (caller : Caller) (command : Bytes) (forceRaw : Bool) : Bytes :=
  if !forceRaw && canUseFeature caller.features (ascii "shell_v2") then
    let term := (caller.term.map (ascii ",TERM=" ++ ·)).getD []
    ascii "shell,v2" ++ term ++ ascii ",raw:" ++ command
  else ascii "shell:" ++ command

end AdbDevice

namespace AdbSession

def start (s : Looper) (caller : Caller) (service : Bytes) : SessionStart :=
  match caller.started with
  | none => .failed (ascii "Transport lost before session start")
  | some t =>
    if caller.socketpair then .started t (s.openService t service)
    else .failed (ascii "Failed to create socketpair for session")

end AdbSession

namespace AdbDevice

def createSession (s : Looper) (caller : Caller) (service : Bytes) : SessionStart :=
  match caller.created with
  | none   => .failed (ascii "Device not connected or transport lost")
  | some _ => AdbSession.start s caller service

end AdbDevice

namespace ServiceCall

def service (caller : Caller) : ServiceCall → Bytes
  | .start service | .connectServiceSync service => service
  | .shell command forceRaw => AdbDevice.shellService caller command forceRaw

def run (s : Looper) (caller : Caller) (call : ServiceCall) : SessionStart :=
  match call with
  | .start service => AdbSession.start s caller service
  | .connectServiceSync _ | .shell _ _ => AdbDevice.createSession s caller (call.service caller)

end ServiceCall

import LibAdb.Execution.SmartSocket
import LibAdb.Objects.Install

-- What goes wrong at a view: an index behind its end, or a `CHECK` that does not hold.
inductive ViewError where
  | outOfRange
  | checkFailed
  deriving DecidableEq, Repr

-- The two views that `parse_host_service` has of its string. `serial` begins where the string does,
-- `command` ends where it ends.
structure HostService.Views where
  serial  : Bytes := []
  command : Bytes
  deriving DecidableEq, Repr

namespace HostService.Views

-- `command[0]`.
def front (v : Views) : Except ViewError UInt8 :=
  match v.command with
  | [] => .error .outOfRange
  | c :: _ => .ok c

def consume (full : Bytes) (count : Nat) (v : Views) : Except ViewError Views :=
  if v.command.length < count then .error .checkFailed
  else if v.serial ≠ [] ∧ v.serial.length ≠ full.length - v.command.length then .error .checkFailed
  else .ok { serial := full.take (v.serial.length + count), command := v.command.drop count }

def finish (v : Views) : Except ViewError (Option (Bytes × Bytes)) :=
  if v.serial = [] ∨ v.command = [] then .ok none
  else if v.serial.getLast? = some 58 then .ok (some (v.serial.dropLast, v.command))
  else .error .checkFailed

def toColon (full : Bytes) (v : Views) : Except ViewError (Option Views) :=
  match v.command.findIdx? (· == 58) with
  | none => .ok none
  | some offset => (v.consume full (offset + 1)).map some

def value (full : Bytes) (v : Views) : Except ViewError (Option (Bytes × Bytes)) := do
  match ← v.toColon full with
  | none => return none
  | some v => v.finish

def port (full : Bytes) (v : Views) : Except ViewError (Option (Bytes × Bytes)) :=
  match v.command.findIdx? (· == 58) with
  | none => v.finish
  | some next =>
    if v.command.length ≤ next then .ok none
    else if (v.command.take next).all isDigit then do (← v.consume full (next + 1)).finish
    else v.finish

def address (full : Bytes) (v : Views) : Except ViewError (Option Views) := do
  if (← v.front) = 91 then
    match v.command.findIdx? (· == 93) with
    | none => v.toColon full
    | some e =>
      let v ← v.consume full (e + 1)
      if v.command = [] then return none
      else if (← v.front) ≠ 58 then return none
      else return some (← v.consume full 1)
  else v.toColon full

def target (full : Bytes) (v : Views) : Except ViewError (Option (Bytes × Bytes)) := do
  match ← v.address full with
  | none => return none
  | some v => v.port full

-- What follows the protocol. The serial of a vsock has one colon more.
def device (full : Bytes) (v : Views) : Except ViewError (Option (Bytes × Bytes)) := do
  if (ascii "vsock:").isPrefixOf v.command then
    match ← v.toColon full with
    | none => return none
    | some v => v.target full
  else v.target full

def parse (full : Bytes) : Except ViewError (Option (Bytes × Bytes)) := do
  let v : Views := { command := full }
  if full = [] then return none
  match prefixes.find? (·.isPrefixOf v.command) with
  | some p => (← v.consume full p.length).value full
  | none =>
    if (ascii "tcp:").isPrefixOf v.command || (ascii "udp:").isPrefixOf v.command then
      let v ← v.consume full 4
      if v.command = [] then return none
      v.device full
    else v.device full

end HostService.Views

-- The request of a client for a command. Transport id, serial and type are those of its options.
def formatHostCommand (transportId : Nat) (serial : Option Bytes) (type : TransportType)
    (command : Bytes) : Bytes :=
  if transportId ≠ 0 then
    ascii "host-transport-id:" ++ Bytes.decimal transportId ++ ascii ":" ++ command
  else
    match serial with
    | some serial => ascii "host-serial:" ++ serial ++ ascii ":" ++ command
    | none =>
      let host := match type with
        | .usb => ascii "host-usb"
        | .loc => ascii "host-local"
        | .any => ascii "host"
      host ++ ascii ":" ++ command

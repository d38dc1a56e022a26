import LibAdb.Execution.SocketSpec
import LibAdb.Objects.Install

-- The choice of a transport for a request.

structure ListedTransport extends ATransport where
  id      : Nat
  type    : TransportType
  devpath : Bytes := []
  deriving DecidableEq, Repr

-- The ids are taken from a counter.
structure TransportList where
  entries : List ListedTransport := []
  ids     : (entries.map (·.id)).Nodup := by simp

-- What is asked of the system: the problem with the groups of the user, `ADB_VENDOR_KEYS` and the
-- memory behind the string that a serial is given as.
structure HostEnvironment where
  udevProblem : Bytes := []
  vendorKeys  : Option Bytes := none
  beyond      : Bytes := []

namespace HostEnvironment

variable (env : HostEnvironment)

def permissionsHelpUrl : Bytes :=
  ascii "http://developer.android.com/tools/device.html"

def usbNoPermissionsShortHelpText : Bytes :=
  ascii "no permissions" ++
    (if env.udevProblem = [] then [] else ascii " (" ++ env.udevProblem ++ ascii ")") ++
    ascii "; see [" ++ permissionsHelpUrl ++ ascii "]"

def usbNoPermissionsLongHelpText : Bytes :=
  ascii "insufficient permissions for device" ++
    (if env.udevProblem = [] then [] else ascii ": " ++ env.udevProblem) ++
    ascii "\nSee [" ++ permissionsHelpUrl ++ ascii "] for more information"

end HostEnvironment

def isAlnum (c : UInt8) : Bool :=
  isDigit c || (65 ≤ c && c ≤ 90) || (97 ≤ c && c ≤ 122)

-- `ptr` runs over the string with its NUL, and behind it if `qual` has a NUL at this place.
def qualMatch (toTest beyond : Bytes) (literal : String) (qual : Bytes) (sanitizeQual : Bool) : Bool :=
  if toTest = [] then qual = []
  else if qual = [] then false
  else
    let text := ascii literal ++ qual.map fun ch => if sanitizeQual && !isAlnum ch then 95 else ch
    let memory := toTest ++ 0 :: beyond
    text.isPrefixOf memory && memory[text.length]? = some 0

namespace ListedTransport

-- A target without a port has the one of the serial.
def matchesAddress (t : ListedTransport) (target : Bytes) : Bool :=
  let localTarget :=
    ((target.consumePrefix "tcp:").or (target.consumePrefix "udp:")).getD target
  match parseNetAddress t.serial (-1) with
  | none => false
  | some (serialHost, serialPort) =>
    parseNetAddress localTarget serialPort == some (serialHost, serialPort)

def matchesTarget (t : ListedTransport) (target beyond : Bytes) : Bool :=
  (t.serial ≠ [] && (target = t.serial || (t.type = .loc && t.matchesAddress target))) ||
    target = t.devpath ||
    qualMatch target beyond "product:" t.product false ||
    qualMatch target beyond "model:" t.model true ||
    qualMatch target beyond "device:" t.device false

end ListedTransport

-- The parameters of `acquire_one_transport`. The type is `none` for `kTransportHost`.
structure TransportRequest where
  type           : Option TransportType
  serial         : Option Bytes := none
  transportId    : Nat := 0
  acceptAnyState : Bool := false

structure Acquired where
  result    : Option ListedTransport := none
  ambiguous : Bool := false
  error     : Bytes
  deriving DecidableEq, Repr

namespace TransportRequest

variable (r : TransportRequest) (env : HostEnvironment)

def notFound : Bytes :=
  if r.transportId ≠ 0 then
    ascii "no device with transport id '" ++ Bytes.decimal r.transportId ++ ascii "'"
  else
    match r.serial, r.type with
    | some serial, _ => ascii "device '" ++ serial ++ ascii "' not found"
    | none, some .loc => ascii "no emulators found"
    | none, some .any => ascii "no devices/emulators found"
    | none, _ => ascii "no devices found"

def moreThanOne : Bytes :=
  match r.serial, r.type with
  | some serial, _ => ascii "more than one device with serial " ++ serial
  | none, some .usb => ascii "more than one USB device"
  | none, some .loc => ascii "more than one emulator"
  | none, _ => ascii "more than one device/emulator"

def selects (t : ListedTransport) : Bool :=
  match r.serial, r.type with
  | some serial, _ => t.matchesTarget serial env.beyond
  | none, some .usb => t.type = .usb
  | none, some .loc => t.type = .loc
  | none, some .any => true
  | none, none => false

-- The loop over the list. It ends at the transport with the id, and at the second one that is selected.
def search : List ListedTransport → Acquired → Acquired
  | [], found => found
  | t :: rest, found =>
    if t.connectionState = .noPerm then
      search rest { found with error := env.usbNoPermissionsLongHelpText }
    else if r.transportId ≠ 0 then
      if t.id = r.transportId then { found with result := some t } else search rest found
    else if r.selects env t then
      if found.result.isSome then { result := none, ambiguous := true, error := r.moreThanOne }
      else search rest { found with result := some t }
    else search rest found

-- The states that a caller who needs an active transport does not get.
def stateError : ConnectionState → Option Bytes
  | .connecting => some (ascii "device still connecting")
  | .authorizing => some (ascii "device still authorizing")
  | .unauthorized => some (ascii "device unauthorized.\nThis adb server's $ADB_VENDOR_KEYS is " ++
      env.vendorKeys.getD (ascii "not set") ++
      ascii ("\nTry 'adb kill-server' if that seems wrong.\n" ++
        "Otherwise check for a confirmation dialog on your device."))
  | .offline => some (ascii "device offline")
  | _ => none

def finish (found : Acquired) : Acquired :=
  match found.result with
  | none => found
  | some t =>
    match (stateError env t.connectionState).filter fun _ => !r.acceptAnyState with
    | some error => { found with result := none, error }
    | none => { found with error := ascii "success" }

def acquireOneTransport (list : List ListedTransport) : Acquired :=
  r.finish env (r.search env list { error := r.notFound })

end TransportRequest

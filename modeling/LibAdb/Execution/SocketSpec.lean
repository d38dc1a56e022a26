import LibAdb.Execution.SmartSocket
import LibAdb.Objects.Install

def isSpace (c : UInt8) : Bool :=
  c == 32 || 9 ≤ c && c ≤ 13

-- The number that a text begins with.
def leadingNumber (s : Bytes) : Int :=
  let s := s.dropWhile isSpace
  let digits := match s with
    | 43 :: s | 45 :: s => s
    | s => s
  let value : Int := (digits.takeWhile isDigit).foldl (fun n c => 10 * n + (c.toNat - 48)) 0
  if s.head? = some 45 then -value else value

-- `strtol` and the assignment of its value to an `int`: the value saturates, and the assignment
-- keeps its lower 32 bits.
def strtol (s : Bytes) : Int :=
  Int.bmod (max (-0x8000000000000000) (min 0x7fffffffffffffff (leadingNumber s))) 0x100000000

-- The value of a string that consists of digits only.
def digitsValue (base : Nat) (s : Bytes) : Option Nat :=
  if s = [] then none
  else s.foldlM (fun n c => (hexValue c).bind fun d =>
    if d.toNat < base then some (base * n + d.toNat) else none) 0

-- `ParseInt` for an `int`. A hexadecimal number has no sign.
def parseInt (s : Bytes) : Option Int :=
  let s := s.dropWhile isSpace
  let value : Option Int :=
    if (ascii "0x").isPrefixOf s || (ascii "0X").isPrefixOf s then
      (digitsValue 16 (s.drop 2)).map (↑)
    else match s with
      | 45 :: s => (digitsValue 10 s).map (-↑·)
      | 43 :: s => (digitsValue 10 s).map (↑)
      | s => (digitsValue 10 s).map (↑)
  value.filter fun n => -0x80000000 ≤ n && n ≤ 0x7fffffff

-- `ParseUint` for an `unsigned int`.
def parseUnsigned (s : Bytes) : Option Nat :=
  let s := (Bytes.cString s []).dropWhile isSpace
  let value :=
    if (ascii "0x").isPrefixOf s || (ascii "0X").isPrefixOf s then digitsValue 16 (s.drop 2)
    else match s with
      | 43 :: s => digitsValue 10 s
      | s => digitsValue 10 s
  value.filter (· ≤ 0xffffffff)

-- `sscanf` with `%d`.
def scanInt (s : Bytes) : Option Int :=
  let s := (Bytes.cString s []).dropWhile isSpace
  let digits := match s with
    | 43 :: s | 45 :: s => s
    | s => s
  if (digits.head?.map isDigit).getD false then some (strtol s) else none

-- The parts of the string before the first and behind the last occurrence of `]:`.
def beforeBracket (s : Bytes) : Option Bytes :=
  (s.tails.findIdx? (ascii "]:").isPrefixOf).map s.take

def afterBracket (s : Bytes) : Bytes :=
  ((s.tails.reverse.find? (ascii "]:").isPrefixOf).getD []).drop 2

def defaultAdbLocalTransportPort : Int := 5555

-- `ParseNetAddress`: the host and the port that an address names. An address without a port
-- leaves the caller's one as it is.
def parseNetAddress (address : Bytes) (port : Int) : Option (Bytes × Int) :=
  let colons := address.count 58
  let hostPort : Option (Bytes × Option Bytes) :=
    if address.head? = some 91 then
      (beforeBracket address).map fun s => (s.drop 1, some (afterBracket address))
    else if address.count 46 = 0 && 2 ≤ colons && colons ≤ 7 then some (address, none)
    else match address.splitOn 58 with
      | [host] => some (host, none)
      | [host, port] => some (host, some port)
      | _ => none
  match hostPort with
  | none | some ([], _) => none
  | some (host, none) => some (host, port)
  | some (host, some port) =>
    ((scanInt port).filter fun n => 0 < n && n ≤ 65535).map fun n => (host, n)

-- The endpoint that a vsock spec names, in two `unsigned int`s.
structure Vsock where
  cid  : Nat
  port : Nat
  deriving DecidableEq, Repr

namespace Vsock

-- `StringPrintf` takes the port for an `int`.
def serial (v : Vsock) : Bytes :=
  ascii "vsock:" ++ Bytes.decimal v.cid ++ ascii ":" ++ Bytes.decimal ((v.port : Int).bmod 0x100000000)

def quoted (message : String) (spec : Bytes) : Bytes :=
  ascii message ++ ascii " in '" ++ Bytes.cString spec [] ++ ascii "'"

-- The branch of `socket_spec_connect` for vsock specs up to the system calls. `port` is what the
-- parameter points to.
def parse (address : Bytes) (port : Option Int32) : Except Bytes Vsock :=
  let fragments := address.splitOn 58
  let portValue := port.elim 0 (·.toUInt32.toNat)
  if fragments.length ≠ 2 ∧ fragments.length ≠ 3 then
    .error (quoted "expected vsock:cid or vsock:cid:port" address)
  else
    match parseUnsigned (fragments.getD 1 []) with
    | none => .error (quoted "could not parse vsock cid" address)
    | some cid =>
      match if fragments.length = 3 then parseUnsigned (fragments.getD 2 []) else some portValue with
      | none => .error (quoted "could not parse vsock port" address)
      | some port =>
        if port = 0 then .error (ascii "vsock port was not provided.") else .ok { cid, port }

end Vsock

inductive SocketNamespace where
  | filesystem
  | abstract
  deriving DecidableEq, Repr

-- Where a socket is connected to. Names are those that the system call gets.
inductive Destination where
  | loopback (port : Int)
  | network (host : Bytes) (port : Int)
  | vsock (cid port : Nat)
  | localSocket (space : SocketNamespace) (name : Bytes)
  deriving DecidableEq, Repr

-- The reserved namespace is not available on the host.
def localSocketTypes : List (String × Option SocketNamespace) :=
  [("local:", some .filesystem), ("localreserved:", none), ("localabstract:", some .abstract),
    ("localfilesystem:", some .filesystem)]

def isTcpSpec (spec : Bytes) : Bool :=
  (ascii "tcp:").isPrefixOf spec

def isVsockSpec (spec : Bytes) : Bool :=
  (ascii "vsock:").isPrefixOf spec

-- `parse_tcp_socket_spec` and the choice of the function that connects. The port is read from the
-- characters at `&spec[4]`, anything else from the string view.
def tcpConnect (view chars : Bytes) : Option Destination :=
  match parseInt (chars.drop 4) with
  | some port => if 0 ≤ port && port ≤ 65535 then some (.loopback port) else none
  | none =>
    (parseNetAddress (view.drop 4) defaultAdbLocalTransportPort).map fun (host, port) =>
      if host = ascii "localhost" then .loopback port else .network (Bytes.cString host []) port

-- A device that asks for a vsock gives no port besides the spec.
def vsockConnect (view : Bytes) : Option Destination :=
  (Vsock.parse view none).toOption.map fun v => .vsock v.cid v.port

def localConnect (view chars : Bytes) : Option Destination :=
  (localSocketTypes.find? fun (kind, _) => (ascii kind).isPrefixOf view).bind fun (kind, space) =>
    space.map fun space => .localSocket space (chars.drop (ascii kind).length)

-- `socket_spec_connect` on the string `view`, whose characters form the C string `chars` when they
-- are read up to the first NUL.
def socketSpecConnect (view chars : Bytes) : Option Destination :=
  if isTcpSpec view then tcpConnect view chars
  else if isVsockSpec view then vsockConnect view
  else localConnect view chars

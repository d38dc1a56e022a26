import LibAdb.Execution.SocketSpec
import LibAdb.Objects.Install

-- Port 0 stands for the default port of the client's options.
structure DeviceAddress where
  host : Bytes
  port : UInt16 := 0
  deriving DecidableEq, Repr

namespace DeviceAddress

def isBlank (c : UInt8) : Bool :=
  c == 32 || c == 9

def isTrailing (c : UInt8) : Bool :=
  isBlank c || c == 13 || c == 10

def trim (text : Bytes) : Bytes :=
  ((text.dropWhile isBlank).reverse.dropWhile isTrailing).reverse

-- `std::from_chars` for a `uint32_t`, which has to read the text to its end.
def fromChars (s : Bytes) : Option Nat :=
  let value := s.foldl (fun n c => 10 * n + (c.toNat - 48)) 0
  if s = [] || !s.all isDigit || 0xffffffff < value then none else some value

def parsePort (s : Bytes) : Option UInt16 :=
  (fromChars s).bind fun value =>
    if value = 0 || 65535 < value then none else some value.toUInt16

def parseRest (host : Bytes) : Bytes → Option DeviceAddress
  | [] => some { host }
  | 58 :: rest => (parsePort rest).map ({ host, port := · })
  | _ => none

def parseBracketed (text : Bytes) : Option DeviceAddress :=
  let host := text.takeWhile (· != 93)
  if 93 ∉ text || host = [] then none
  else parseRest host (text.dropWhile (· != 93)).tail

def parsePlain (text : Bytes) : Option DeviceAddress :=
  let host := text.beforeLast 58
  if 58 ∉ text then some { host := text }
  else if host = [] || text.afterLast 58 = [] then none
  else (parsePort (text.afterLast 58)).map ({ host, port := · })

def parse (text : Bytes) : Option DeviceAddress :=
  match trim text with
  | [] => none
  | 91 :: rest => parseBracketed rest
  | text => parsePlain text

def effective (a : DeviceAddress) (defaultPort : UInt16) : UInt16 :=
  if a.port ≠ 0 then a.port else defaultPort

def needsBrackets (a : DeviceAddress) : Bool :=
  58 ∈ a.host && a.host.head? != some 91

def toString (a : DeviceAddress) (defaultPort : UInt16) : Bytes :=
  (if a.needsBrackets then 91 :: a.host ++ [93] else a.host) ++
    58 :: Bytes.decimal (a.effective defaultPort).toNat

end DeviceAddress

-- The serial under which the client keeps a device. An empty one stands for a failed parse.
def normalizeAddress (text : Bytes) (defaultPort : UInt16) : Bytes :=
  ((DeviceAddress.parse text).map (·.toString defaultPort)).getD []

import Mathlib.Data.List.Basic

abbrev Bytes := List UInt8

-- The bytes of an ASCII literal of the source.
def ascii (s : String) : Bytes :=
  s.toList.map (·.toNat.toUInt8)

namespace Bytes

def consumePrefix (s : Bytes) (literal : String) : Option Bytes :=
  if (ascii literal).isPrefixOf s then some (s.drop (ascii literal).length) else none

-- The byte strings before and after the first occurrence of a character (`find` and two `substr`).
def cut (s : Bytes) (c : UInt8) : Option (Bytes × Bytes) :=
  if c ∈ s then some (s.takeWhile (· != c), (s.dropWhile (· != c)).tail) else none

def stripTrailingNulls (s : Bytes) : Bytes :=
  (s.reverse.dropWhile (· == 0)).reverse

-- The string a `const char*` into a buffer denotes: it ends at the first NUL, and when the buffer
-- holds none it runs on into the memory `beyond`.
def cString (s beyond : Bytes) : Bytes :=
  (s ++ beyond).takeWhile (· != 0)

end Bytes

-- The four bytes of a 32-bit value as `memcpy` lays them out on a little-endian host.
def UInt32.toBytes (n : UInt32) : Bytes :=
  [n.toUInt8, (n >>> 8).toUInt8, (n >>> 16).toUInt8, (n >>> 24).toUInt8]

def UInt32.ofBytes : Bytes → Option UInt32
  | [a, b, c, d] => some (a.toUInt32 ||| b.toUInt32 <<< 8 ||| c.toUInt32 <<< 16 ||| d.toUInt32 <<< 24)
  | _            => none

theorem UInt32.ofBytes_toBytes (n : UInt32) : ofBytes n.toBytes = some n := by
  refine congrArg some (UInt32.eq_of_toBitVec_eq ?_)
  ext i hi
  simp [-UInt32.toUInt32_toUInt8]
  grind

def Apacket.maxPayload : Nat := 1024 * 1024
def Apacket.maxPayloadV1 : Nat := 4 * 1024
def initialDelayedAckBytes : UInt64 := 1024 * 1024

def aVersionMin : Int := 0x01000000
def aVersionSkipChecksum : Int := 0x01000001
def aVersion : Int := 0x01000001
def aStlsVersion : UInt32 := 0x01000000

def adbAuthToken : UInt32 := 1
def adbAuthSignature : UInt32 := 2
def adbAuthRsaPublicKey : UInt32 := 3

inductive Command where
  | sync
  | cnxn
  | open
  | okay
  | clse
  | wrte
  | auth
  | stls
  deriving DecidableEq, Repr

namespace Command

def word : Command → UInt32
  | .sync => 0x434e5953
  | .cnxn => 0x4e584e43
  | .open => 0x4e45504f
  | .okay => 0x59414b4f
  | .clse => 0x45534c43
  | .wrte => 0x45545257
  | .auth => 0x48545541
  | .stls => 0x534C5453

def all : List Command := [.sync, .cnxn, .open, .okay, .clse, .wrte, .auth, .stls]

def ofWord (w : UInt32) : Option Command :=
  all.find? (·.word == w)

theorem ofWord_word (c : Command) : ofWord c.word = some c := by
  cases c <;> decide

end Command

structure Apacket where
  command    : UInt32 := 0
  arg0       : UInt32 := 0
  arg1       : UInt32 := 0
  dataLength : UInt32 := 0
  dataCheck  : UInt32 := 0
  magic      : UInt32 := 0
  payload    : Bytes  := []
  deriving DecidableEq, Repr

namespace Apacket

-- A packet of the given command whose `data_length` is set from its payload, as every sender does.
-- The length is truncated to the field's 32 bits.
def make (c : Command) (arg0 arg1 : UInt32) (payload : Bytes) : Apacket :=
  { command := c.word, arg0, arg1, payload, dataLength := UInt32.ofNat payload.length }

def checksum (p : Apacket) : UInt32 :=
  (p.payload.take p.dataLength.toNat).foldl (fun sum b => sum + b.toUInt32) 0

def kind (p : Apacket) : Option Command :=
  Command.ofWord p.command

@[simp]
theorem kind_make : (make c a₀ a₁ bs).kind = some c :=
  Command.ofWord_word c

end Apacket

def checkHeader (p : Apacket) (maxPayload : Nat) : Bool :=
  p.magic == p.command ^^^ 0xffffffff && p.dataLength.toNat ≤ maxPayload

-- A packet that a connection's read thread has put together and that passed `check_header`. That
-- check uses the transport's maximum payload at the time of reading, which never exceeds
-- `Apacket.maxPayload`; the connection reads exactly `data_length` payload bytes.
structure ReceivedPacket extends Apacket where
  framed : payload.length = dataLength.toNat
  header : checkHeader toApacket Apacket.maxPayload

-- The packet as a device sends it.
def ReceivedPacket.ofCommand (c : Command) (arg0 arg1 : UInt32) (payload : Bytes)
    (h : payload.length ≤ Apacket.maxPayload) : ReceivedPacket where
  toApacket := { Apacket.make c arg0 arg1 payload with magic := c.word ^^^ 0xffffffff }
  framed := by
    have : Apacket.maxPayload < 2 ^ 32 := by decide
    simp only [Apacket.make, UInt32.toNat_ofNat']
    omega
  header := by
    have : Apacket.maxPayload < 2 ^ 32 := by decide
    simp only [checkHeader, Apacket.make, UInt32.toNat_ofNat', beq_self_eq_true, Bool.true_and,
      decide_eq_true_eq]
    omega

-- The first packet of a device, without and with delayed acknowledgements.
def ReceivedPacket.connect : ReceivedPacket :=
  .ofCommand .cnxn 0x01000001 0x00100000 (ascii "device::") (by decide)

def ReceivedPacket.connectDelayed : ReceivedPacket :=
  .ofCommand .cnxn 0x01000001 0x00100000 (ascii "device::features=delayed_ack") (by decide)

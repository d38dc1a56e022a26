import LibAdb.Library.Programs
import LibAdb.Objects.Install

inductive CompressionType where
  | none
  | any
  | brotli
  | lz4
  | zstd
  deriving DecidableEq, Repr

namespace FileSync

def syncDataMax : Nat := 64 * 1024

-- The ids of the messages, as the bytes that `MKID` puts on the wire.
namespace Id

def sendV1 : Bytes := ascii "SEND"
def recvV1 : Bytes := ascii "RECV"
def recvV2 : Bytes := ascii "RCV2"
def done   : Bytes := ascii "DONE"
def data   : Bytes := ascii "DATA"
def okay   : Bytes := ascii "OKAY"
def fail   : Bytes := ascii "FAIL"

end Id

-- The fields of a message, by their offsets.
def field (message : Bytes) (offset : Nat) : UInt32 :=
  (UInt32.ofBytes ((message.drop offset).take 4)).getD 0

def messageId (message : Bytes) : Bytes :=
  message.take 4

-- What one call of `WriteFdExactly` writes to the connection.
inductive Packet where
  | request (id path : Bytes)
  | recv2 (path : Bytes) (flags : UInt32)
  | small (pathAndMode data : Bytes) (mtime : UInt32)
  | data (bytes : Bytes)
  | done (mtime : UInt32)
  deriving DecidableEq, Repr

namespace Packet

def header (id : Bytes) (length : Nat) : Bytes :=
  id ++ (UInt32.ofNat length).toBytes

def encode : Packet → Bytes
  | request id path => header id path.length ++ path
  | recv2 path flags => header Id.recvV2 path.length ++ path ++ (Id.recvV2 ++ flags.toBytes)
  | small pathAndMode bytes mtime =>
    header Id.sendV1 pathAndMode.length ++ pathAndMode ++ (header Id.data bytes.length ++ bytes) ++
      (Id.done ++ mtime.toBytes)
  | data bytes => header Id.data bytes.length ++ bytes
  | done mtime => Id.done ++ mtime.toBytes

end Packet

-- What the bytes that are read from the connection are taken for. With the header of a data frame
-- goes whether the decoder was told the end of the data before.
inductive Reading where
  | frame (finished : Bool)
  | payload
  | reason
  deriving DecidableEq, Repr

inductive EncodeResult where
  | error
  | done
  | needInput
  | moreOutput
  deriving DecidableEq, Repr

inductive DecodeResult where
  | error
  | done
  | needInput
  | moreOutput
  deriving DecidableEq, Repr

-- What the client does to the world, with the answers it gets.
inductive Event where
  | write (packet : Packet) (accepted : Nat)
  | recv (reading : Reading) (wanted : Nat) (bytes : Bytes)
  | poll (ready : Bool)
  | chunk (bytes : Bytes)
  | ack (header : Bytes)
  | sent (lpath rpath : Bytes)
  | failed (lpath rpath message : Bytes)
  | abort (asked : Bool)
  | decode (result : DecodeResult)
  | unlink (path : Bytes)
  | creat (path : Bytes) (ok : Bool)
  | store (bytes : Bytes) (ok : Bool)
  deriving DecidableEq, Repr

-- The host around the client. Its answers may depend on all that has happened. `accepts` is the
-- number of bytes after which a write fails, and `chunk` what a single `read` of the connection
-- returns at most.
structure Env where
  accepts  : List Event → Option Nat := fun _ => none
  errno    : List Event → Nat := fun _ => 0
  poll     : List Event → Bool := fun _ => false
  chunk    : List Event → Nat := fun _ => 1
  abort    : List Event → Bool := fun _ => false
  creat    : List Event → Bytes → Bool := fun _ _ => true
  store    : List Event → Bool := fun _ => true

-- The state of a transfer. The device sends `input`, of which `left` bytes come before the end of
-- the stream. A connection that has failed to take a write takes nothing more.
structure World where
  env      : Env
  observed : Bool := true
  input    : Stream' UInt8
  left     : Option Nat := none
  broken   : Bool := false
  errno    : Nat := 0
  acks     : List (Bytes × Bytes) := []
  buffer   : Bytes := []
  log      : List Event := []

-- How the process ends: a failed `CHECK` or `LOG(FATAL)`.
inductive Halt where
  | fatal
  deriving DecidableEq, Repr

end FileSync

structure SyncConnection where
  features               : Option (List Bytes) := none
  haveStatV2             : Bool
  haveLsV2               : Bool
  haveSendRecv2          : Bool
  haveSendRecv2Brotli    : Bool
  haveSendRecv2LZ4       : Bool
  haveSendRecv2Zstd      : Bool
  haveSendRecv2DryRunSend : Bool
  deriving DecidableEq, Repr

namespace SyncConnection

-- The constructor does not set `features_`.
def make (features : List Bytes) : SyncConnection where
  haveStatV2              := canUseFeature features (ascii "stat_v2")
  haveLsV2                := canUseFeature features (ascii "ls_v2")
  haveSendRecv2           := canUseFeature features (ascii "sendrecv_v2")
  haveSendRecv2Brotli     := canUseFeature features (ascii "sendrecv_v2_brotli")
  haveSendRecv2LZ4        := canUseFeature features (ascii "sendrecv_v2_lz4")
  haveSendRecv2Zstd       := canUseFeature features (ascii "sendrecv_v2_zstd")
  haveSendRecv2DryRunSend := canUseFeature features (ascii "sendrecv_v2_dry_run_send")

def resolveCompressionType (sc : SyncConnection) : CompressionType → CompressionType
  | .any =>
    if sc.haveSendRecv2Zstd then .zstd
    else if sc.haveSendRecv2LZ4 then .lz4
    else if sc.haveSendRecv2Brotli then .brotli
    else .none
  | compression => compression

end SyncConnection

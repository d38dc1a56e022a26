import LibAdb.Library.Fragments
import LibAdb.Objects.FileSync

namespace Apacket

-- What `send_packet` puts into the header, for the protocol version of the transport.
def stamp (p : Apacket) (version : Int) : Apacket :=
  { p with
    magic     := p.command ^^^ 0xffffffff
    dataCheck := if version ≥ aVersionSkipChecksum then 0 else p.checksum }

-- An `amessage` as it lies in memory.
def header (p : Apacket) : Bytes :=
  List.flatten [p.command.toBytes, p.arg0.toBytes, p.arg1.toBytes, p.dataLength.toBytes,
    p.dataCheck.toBytes, p.magic.toBytes]

def ofHeader (msg : Bytes) : Apacket where
  command    := FileSync.field msg 0
  arg0       := FileSync.field msg 4
  arg1       := FileSync.field msg 8
  dataLength := FileSync.field msg 12
  dataCheck  := FileSync.field msg 16
  magic      := FileSync.field msg 20

end Apacket

-- A connection over a socket, with TLS or without.
namespace FdConnection

-- The `TlsConnection` does not allow reads of no bytes.
def dispatchRead (tls : Bool) (len : Nat) : StreamReader UInt8 Bytes :=
  if tls && len = 0 then pure [] else StreamReader.exactly len

-- Only a plain socket is written to again when it has taken nothing.
def dispatchWrite (tls : Bool) (buf : Bytes) (answers : List Written) :
    Option (Bool × Bytes × List Written) :=
  if tls && buf = [] then some (true, [], answers) else StreamWriter.exactly (!tls) buf answers

def read (tls : Bool) : StreamReader UInt8 Apacket := do
  let msg ← dispatchRead tls 24
  let packet := Apacket.ofHeader msg
  if packet.dataLength.toNat > Apacket.maxPayload then fun _ => none
  else
    let payload ← dispatchRead tls packet.dataLength.toNat
    return { packet with payload }

-- The payload has as many bytes as the header says, which every sender sees to.
def write (tls : Bool) (p : Apacket) (answers : List Written) :
    Option (Bool × Bytes × List Written) := do
  let (ok, out, answers) ← dispatchWrite tls p.header answers
  if !ok || p.dataLength = 0 then return (ok, out, answers)
  else
    let (ok, more, answers) ← dispatchWrite tls (p.payload.take p.dataLength.toNat) answers
    return (ok, out ++ more, answers)

-- The write thread, which ends with the first packet that it cannot write.
def writeAll (tls : Bool) : List Apacket → List Written → Option (Bool × Bytes × List Written)
  | [], answers => some (true, [], answers)
  | p :: packets, answers => do
    let (ok, out, answers) ← write tls p answers
    if ok then
      let (ok, more, answers) ← writeAll tls packets answers
      return (ok, out ++ more, answers)
    else return (false, out, answers)

def readAll (tls : Bool) (fragments : List Bytes) : List Apacket :=
  StreamReader.all (read tls) fragments

-- The read thread returns after an `STLS` packet, whatever `HandleRead` makes of it.
def uptoStls : List Apacket → List Apacket
  | [] => []
  | p :: packets => p :: if p.command = Command.stls.word then [] else uptoStls packets

-- The packets that one run of the read thread hands to `HandleRead`.
def readThread (tls : Bool) (fragments : List Bytes) : List Apacket :=
  uptoStls (readAll tls fragments)

-- `HandleRead` passes on what `check_header` accepts.
def delivered (maxPayload : Nat) (packets : List Apacket) : List Apacket :=
  packets.filter (checkHeader · maxPayload)

end FdConnection

import LibAdb.Library.Programs
import LibAdb.Objects.Packet

-- `IncrementalServer`: it sends the blocks of files to a device, with the blocks of their hash trees.

namespace Incremental

def blockSize : Nat := 4096
def digestSize : Nat := 32
def hashesPerBlock : Nat := blockSize / digestSize
def compressedSizeMax : Nat := 3891
def chunkFlushSize : Nat := 31 * blockSize
def pendingBlocksSize : Nat := chunkFlushSize + 2 * blockSize

-- What an integer of 32 bits is left with.
@[irreducible]
def int32 (n : Int) : Int :=
  n.bmod 0x100000000

def numBytesToNumBlocks (bytes : Nat) : Int :=
  int32 ((bytes + blockSize - 1) / blockSize : Nat)

-- The hash blocks above `count` blocks, level by level.
def treeBlocks : Nat → Nat → Nat
  | 0, _ => 0
  | n + 1, count =>
    if count > 1 then
      let count := (count + hashesPerBlock - 1) / hashesPerBlock
      count + treeBlocks n count
    else 0

def verityTreeBlocksForFile (fileSize : Nat) : Nat :=
  if fileSize = 0 then 0
  else
    let blocks := 1 + (fileSize - 1) / blockSize
    treeBlocks blocks blocks

structure File where
  size           : Nat
  hasTree        : Bool := false
  priorityBlocks : List Int := []
  deriving DecidableEq, Repr

namespace File

-- The sizes of `sentBlocks` and of `sentTreeBlocks`.
def blocks (f : File) : Int :=
  numBytesToNumBlocks f.size

def nodes (f : File) : Nat :=
  verityTreeBlocksForFile f.size

def leafNodesCount (f : File) : Int :=
  (int32 (f.blocks + hashesPerBlock - 1)).tdiv hashesPerBlock

def leafNodesOffset (f : File) : Int :=
  int32 f.nodes - f.leafNodesCount

def leafIdx (f : File) (blockIdx : Int) : Int :=
  f.leafNodesOffset + blockIdx / hashesPerBlock

end File

inductive RequestType where
  | servingComplete
  | blockMissing
  | prefetch
  | destroy
  | other
  deriving DecidableEq, Repr

structure RequestCommand where
  requestType : RequestType
  fileId      : Int16
  blockIdx    : Int32
  deriving DecidableEq, Repr

def be16 (n : UInt16) : Bytes :=
  [(n.toNat / 256).toUInt8, n.toNat.toUInt8]

def be32 (n : UInt32) : Bytes :=
  n.toBytes.reverse

-- A response with its header. The kinds and the compressions are the numbers of the source.
structure Record where
  fileId          : UInt16
  blockType       : UInt8 := 0
  compressionType : UInt8 := 0
  blockIdx        : UInt32 := 0
  bytes           : Bytes := []
  deriving DecidableEq, Repr

def Record.encode (r : Record) : Bytes :=
  be16 r.fileId ++ [r.blockType, r.compressionType] ++ be32 r.blockIdx ++
    be16 (.ofNat r.bytes.length) ++ r.bytes

structure Prefetch where
  file          : Nat
  overallIndex  : Int
  overallEnd    : Int
  priorityIndex : Int := 0

def Prefetch.make (file : Nat) (f : File) (start count : Int) : Prefetch where
  file         := file
  overallIndex := start
  overallEnd   := min (int32 (start + count)) f.blocks

-- The answers of the host: what reading a block gives and what is read from the device, at any time.
structure Host where
  alive    : Bool := true
  request  : Nat → Option RequestCommand
  readTree : Nat → Nat → Nat → Option Bytes
  readData : Nat → Nat → Nat → Option Bytes
  compress : Bytes → Bytes := fun _ => []

structure Server where
  clock           : Nat := 0
  sentBlocks      : Nat → Nat → Bool := fun _ _ => false
  sentBlocksCount : Nat → Int := fun _ => 0
  sentTreeBlocks  : Nat → Nat → Bool := fun _ _ => false
  prefetches      : List Prefetch := []
  prefetchedFiles : List Int16 := []
  doneSent        : Bool := false
  pending         : Bytes := []
  -- All that was written to the device, and the records behind it.
  written         : Bytes := []
  sent            : List Record := []

-- An access outside of a vector, or more pending bytes than fit into their buffer.
inductive Fault where
  | index
  | overflow
  deriving DecidableEq, Repr

inductive SendResult where
  | sent
  | skipped
  | error
  deriving DecidableEq, Repr

abbrev ServerM := Prog Server Fault

def mark (flags : Nat → Nat → Bool) (file i : Nat) : Nat → Nat → Bool :=
  fun file' i' => flags file' i' || file' = file && i' = i

def index (i size : Int) : ServerM Nat :=
  if 0 ≤ i ∧ i < size then return i.toNat else Prog.halt .index

def ask (answer : Nat → ρ) : ServerM ρ := do
  let s ← Prog.get
  Prog.modify fun s => { s with clock := s.clock + 1 }
  return answer s.clock

def Server.flush (s : Server) : Server :=
  if s.pending = [] then s
  else { s with
    written := s.written ++ (be32 (.ofNat s.pending.length) ++ s.pending)
    pending := [] }

def Server.send (s : Server) (r : Record) (flush : Bool) : Server :=
  let s := { s with pending := s.pending ++ r.encode, sent := s.sent ++ [r] }
  if flush || 4 + s.pending.length > chunkFlushSize then s.flush else s

def send (r : Record) (flush : Bool) : ServerM Unit := do
  let s ← Prog.get
  if 4 + (s.pending ++ r.encode).length > pendingBlocksSize then Prog.halt .overflow
  else Prog.modify (·.send r flush)

section Blocks

variable (host : Host) (files : List File)

def sendTreeBlock (file i : Nat) : ServerM Bool := do
  match (← ask fun n => host.readTree n file i).map (·.take blockSize) with
  | none | some [] => return false
  | some bytes =>
    send { fileId := .ofNat file, blockType := 1, blockIdx := .ofNat i, bytes } false
    return true

def sendInnerBlocks (file : Nat) (f : File) : List Nat → ServerM Bool
  | [] => return true
  | i :: rest => do
    if ← sendTreeBlock host file i then
      let j ← index i f.nodes
      Prog.modify fun s => { s with sentTreeBlocks := mark s.sentTreeBlocks file j }
      sendInnerBlocks file f rest
    else return false

def sendTreeBlocksForDataBlock (file : Nat) (f : File) (blockIdx : Int) : ServerM Bool := do
  if !f.hasTree then return true
  else
    let leaf ← index (f.leafIdx blockIdx) f.nodes
    if (← Prog.get).sentTreeBlocks file leaf then return true
    else if ← sendTreeBlock host file leaf then
      Prog.modify fun s => { s with sentTreeBlocks := mark s.sentTreeBlocks file leaf }
      if f.leafNodesOffset = 0 then return true
      else
        let first ← index 0 f.nodes
        if (← Prog.get).sentTreeBlocks file first then return true
        else sendInnerBlocks host file f (List.range f.leafNodesOffset.toNat)
    else return false

def compressed (raw : Bytes) : UInt8 × Bytes :=
  let bytes := host.compress raw
  if 0 < bytes.length ∧ bytes.length < compressedSizeMax then (1, bytes) else (0, raw)

def sendDataBlock (file : Nat) (blockIdx : Int) (flush : Bool) : ServerM SendResult := do
  let _ ← index file files.length
  let f := files.getD file { size := 0 }
  if blockIdx ≥ f.blocks then return .skipped
  else
    let b ← index blockIdx f.blocks
    if (← Prog.get).sentBlocks file b then return .skipped
    else if ← sendTreeBlocksForDataBlock host file f b then
      match (← ask fun n => host.readData n file b).map (·.take blockSize) with
      | none => return .error
      | some raw =>
        let (compressionType, bytes) := compressed host raw
        Prog.modify fun s => { s with
          sentBlocks      := mark s.sentBlocks file b
          sentBlocksCount := Function.update s.sentBlocksCount file (s.sentBlocksCount file + 1) }
        send { fileId := .ofNat file, compressionType, blockIdx := .ofNat b, bytes } flush
        return .sent
    else return .error

-- The blocks from the one with the number `i` on, as long as the budget lasts.
def sendBlocks (file : Nat) (block : Int → Option Int) (last : Int) (i : Int) (budget : Nat) :
    ServerM (Int × Nat) :=
  Prog.loop (fun (i, budget) => do
    if budget > 0 && i < last then
      match block i with
      | none => Prog.halt .index
      | some b =>
        let result ← sendDataBlock host files file b false
        return .again (i + 1, if result = .sent then budget - 1 else budget)
    else return .done (i, budget)) (i, budget)

def Prefetch.done (p : Prefetch) (f : File) : Bool :=
  p.overallIndex ≥ p.overallEnd &&
    (f.priorityBlocks = [] || p.priorityIndex ≥ f.priorityBlocks.length)

def runPrefetching : ServerM Unit :=
  Prog.loop (fun budget => do
    match (← Prog.get).prefetches with
    | [] => return .done ()
    | p :: rest =>
      if budget = 0 then return .done ()
      else
        let f := files.getD p.file { size := 0 }
        let (priorityIndex, budget) ← sendBlocks host files p.file
          (fun i => f.priorityBlocks[i.toNat]?) f.priorityBlocks.length p.priorityIndex budget
        let (overallIndex, budget) ←
          sendBlocks host files p.file some p.overallEnd p.overallIndex budget
        let p := { p with priorityIndex, overallIndex }
        Prog.modify fun s => { s with prefetches := if p.done f then rest else p :: rest }
        return .again budget) 128

end Blocks

section Serving

variable (host : Host) (files : List File)

def doneRecord : Record where
  fileId := 0xffff

def sendDone : ServerM Unit :=
  send doneRecord true

def handleRequest (r : RequestCommand) : ServerM Unit := do
  let fileId := r.fileId.toInt
  let blockIdx := r.blockIdx.toInt
  match r.requestType with
  | .blockMissing =>
    if fileId < 0 ∨ fileId ≥ Int.bmod files.length 0x10000 ∨ blockIdx < 0 ∨
        blockIdx ≥ (files.getD fileId.toNat { size := 0 }).blocks then return ()
    else if (← sendDataBlock host files fileId.toNat blockIdx true) = .sent then
      Prog.modify fun s => { s with
        prefetches := .make fileId.toNat (files.getD fileId.toNat { size := 0 }) (blockIdx + 1) 7 ::
          s.prefetches }
  | .prefetch =>
    if fileId < 0 ∨ r.fileId ∈ (← Prog.get).prefetchedFiles then return ()
    else
      Prog.modify fun s => { s with prefetchedFiles := r.fileId :: s.prefetchedFiles }
      let file ← index fileId files.length
      let f := files.getD file { size := 0 }
      Prog.modify fun s => { s with prefetches := s.prefetches ++ [.make file f 0 f.blocks] }
  | _ => return ()

def allSent (s : Server) : Bool :=
  (List.range files.length).all fun file =>
    s.sentBlocksCount file = (files.getD file { size := 0 }).blocks

def serveRequest : ServerM (Turn Unit Bool) := do
  match ← ask host.request with
  | none =>
    runPrefetching host files
    return .again ()
  | some r =>
    if r.requestType = .destroy then return .done true
    else
      handleRequest host files r
      runPrefetching host files
      return .again ()

def serveOnce : ServerM (Turn Unit Bool) := do
  let s ← Prog.get
  if !s.doneSent && s.prefetches.isEmpty && allSent files s then
    sendDone
    Prog.modify fun s => { s with doneSent := true }
  if s.prefetches.isEmpty then Prog.modify Server.flush
  serveRequest host files

def serve : ServerM Bool := do
  if host.alive then
    Prog.modify fun s => { s with written := s.written ++ ascii "OKAY" }
    Prog.loop (fun _ => serveOnce host files) ()
  else return false

end Serving

section Input

def readBufferSize : Nat := 128 * 1024
def incr : Bytes := ascii "INCR"
def requestSize : Nat := 8

-- The stream from the device, on its way to the requests and to the output of the server.
structure Channel where
  buffer   : Bytes := []
  output   : Bytes := []
  requests : List Bytes := []
  ended    : Bool := false
  deriving DecidableEq, Repr

-- What a poll finds. Where there is something, a read returns some bytes, or none at the end of the
-- stream. With `quits` a timeout is the end of the calls.
inductive Poll where
  | ready (data : Bytes)
  | timeout (quits : Bool)
  | failed
  deriving DecidableEq, Repr

-- The bytes before the magic number; without one the last four bytes are kept.
def findMagic : Bytes → Bytes × Bytes
  | [] => ([], [])
  | c :: rest =>
    if rest.length < 4 || incr.isPrefixOf (c :: rest) then ([], c :: rest)
    else
      let (text, rest) := findMagic rest
      (c :: text, rest)

def magicFound (bytes : Bytes) : Bool :=
  4 < bytes.length && incr.isPrefixOf bytes

-- Whether it may be called again, and the polls that are not made yet. At the end of the stream the
-- buffer still has the size that it got for the read.
def Channel.skipToRequest (c : Channel) (polls : List Poll) : Bool × List Poll × Channel :=
  let (text, rest) := findMagic c.buffer
  let c := { c with output := c.output ++ text, buffer := rest }
  if magicFound rest && rest.length ≥ requestSize + 4 then
    (true, polls, { c with
      requests := c.requests ++ [(rest.drop 4).take requestSize]
      buffer   := rest.drop (requestSize + 4) })
  else
    match polls with
    | [] => (false, [], c)
    | .ready data :: polls =>
      if data = [] then
        let buffer := rest ++ List.replicate (readBufferSize - rest.length) 0
        (false, polls, { c with output := c.output ++ buffer, buffer, ended := true })
      else skipToRequest { c with buffer := rest ++ data } polls
    | .timeout quits :: polls => (!quits, polls, { c with output := c.output ++ rest })
    | .failed :: polls => (false, polls, { c with output := c.output ++ rest })

-- So many calls of the server, as long as it may call again.
def Channel.serve : Nat → List Poll → Channel → List Poll × Channel
  | 0, polls, c => (polls, c)
  | calls + 1, polls, c =>
    let (more, polls, c) := c.skipToRequest polls
    if more then c.serve calls polls else (polls, c)

end Input

end Incremental

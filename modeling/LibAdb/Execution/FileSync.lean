import LibAdb.Execution.Decoder

namespace FileSync

abbrev SyncM := Prog World Halt

section Primitives

def note (event : Event) : SyncM Unit :=
  Prog.modify fun w => { w with log := w.log ++ [event] }

def ask (answer : Env → List Event → ρ) (event : ρ → Event) : SyncM ρ := do
  let w ← Prog.get
  note (event (answer w.env w.log))
  return answer w.env w.log

def setErrno (errno : Nat) : SyncM Unit :=
  Prog.modify fun w => { w with errno }

def check (condition : Bool) : SyncM Unit :=
  if condition then return () else Prog.halt .fatal

-- The bytes that the device has sent, as many as `n` unless the stream ends before.
def receive (n : Nat) : SyncM Bytes := do
  let w ← Prog.get
  let k := w.left.elim n (min n)
  Prog.modify fun w => { w with input := w.input.drop k, left := w.left.map (· - k) }
  return w.input.take k

def readFdExactly (reading : Reading) (n : Nat) : SyncM (Option Bytes) := do
  let bytes ← receive n
  note (.recv reading n bytes)
  return if bytes.length = n then some bytes else none

def writeFdExactly (packet : Packet) : SyncM Bool := do
  let w ← Prog.get
  let length := packet.encode.length
  let accepted := if w.broken then 0 else min length ((w.env.accepts w.log).getD length)
  Prog.modify fun w => { w with
    broken := w.broken || accepted < length
    errno := if accepted < length then w.env.errno w.log else w.errno }
  note (.write packet accepted)
  return accepted = length

def syncShouldAbort : SyncM Bool := do
  let w ← Prog.get
  ask (fun env log => w.observed && env.abort log) .abort

def unlink (path : Bytes) : SyncM Unit :=
  note (.unlink path)

def creat (path : Bytes) : SyncM Bool :=
  ask (fun env log => env.creat log path) (.creat path)

def store (bytes : Bytes) : SyncM Bool :=
  ask (fun env log => env.store log) (.store bytes)

end Primitives

section Requests

def enametoolong : Nat := 36

def sendRequest (id path : Bytes) : SyncM Bool :=
  if path.length > 1024 then do
    setErrno enametoolong
    return false
  else writeFdExactly (.request id path)

def compressionFlags : CompressionType → Option UInt32
  | .none   => some 0
  | .brotli => some 1
  | .lz4    => some 2
  | .zstd   => some 4
  | .any    => none

def sendRecv2 (path : Bytes) (compression : CompressionType) : SyncM Bool :=
  if path.length > 1024 then do
    setErrno enametoolong
    return false
  else match compressionFlags compression with
    | none => Prog.halt .fatal
    | some flags => writeFdExactly (.recv2 path flags)

def reportCopyFailure (msg : Bytes) : SyncM Unit := do
  discard (readFdExactly .reason (field msg 4).toNat)

end Requests

section Acknowledgements

def poll : SyncM Bool :=
  ask (fun env log => env.poll log) .poll

end Acknowledgements

section Pull

variable (codecs : Codecs)

def recvBlocksV1 (lpath : Bytes) : SyncM Bool :=
  Prog.loop (fun _ => do
    if ← syncShouldAbort then
      unlink lpath
      return .done false
    else
      match ← readFdExactly (.frame false) 8 with
      | none =>
        unlink lpath
        return .done false
      | some msg =>
        if messageId msg = Id.done then return .done true
        else if messageId msg ≠ Id.data then
          unlink lpath
          reportCopyFailure msg
          return .done false
        else if (field msg 4).toNat > syncDataMax then
          unlink lpath
          return .done false
        else
          match ← readFdExactly .payload (field msg 4).toNat with
          | none =>
            unlink lpath
            return .done false
          | some block =>
            if ← store block then return .again ()
            else
              unlink lpath
              return .done false) ()

def syncRecvV1 (rpath lpath : Bytes) : SyncM Bool := do
  if !(← sendRequest Id.recvV1 rpath) then return false
  else
    unlink lpath
    if ← creat lpath then recvBlocksV1 lpath else return false

-- The inner loop of `sync_recv_v2`: `.error` is what the function returns, `.ok` that it goes on to
-- the next frame.
def decodeBlocks {codecs : Codecs} (lpath : Bytes) (decoder : Decoder codecs) :
    SyncM (Except Bool (Decoder codecs)) :=
  Prog.loop (fun (decoder : Decoder codecs) => do
    match decoder.decode with
    | none => Prog.halt .fatal
    | some (result, output, decoder) =>
      note (.decode result)
      if result = .error then
        unlink lpath
        return .done (.error false)
      else if ← (if output = [] then pure true else store output) then
        match result with
        | .done => return .done (.error true)
        | .moreOutput => return .again decoder
        | _ => return .done (.ok decoder)
      else
        unlink lpath
        return .done (.error false)) decoder

def decodeFrames {codecs : Codecs} (lpath : Bytes) (decoder : Decoder codecs) :
    SyncM (Turn (Decoder codecs) Bool) := do
  match ← decodeBlocks lpath decoder with
  | .error result => return .done result
  | .ok decoder => return .again decoder

def recvBlocksV2 {codecs : Codecs} (lpath : Bytes) (decoder : Decoder codecs) : SyncM Bool :=
  Prog.loop (fun (decoder : Decoder codecs) => do
    if ← syncShouldAbort then
      unlink lpath
      return .done false
    else
      match ← readFdExactly (.frame decoder.finished) 8 with
      | none =>
        unlink lpath
        return .done false
      | some msg =>
        if messageId msg = Id.done then
          match decoder.finish with
          | none => Prog.halt .fatal
          | some decoder => decodeFrames lpath decoder
        else if messageId msg ≠ Id.data then
          unlink lpath
          reportCopyFailure msg
          return .done false
        else if (field msg 4).toNat > syncDataMax then
          unlink lpath
          return .done false
        else
          match ← readFdExactly .payload (field msg 4).toNat with
          | none =>
            unlink lpath
            return .done false
          | some block => decodeFrames lpath (decoder.append block)) decoder

def syncRecvV2 (sc : SyncConnection) (rpath lpath : Bytes) (compression : CompressionType) :
    SyncM Bool := do
  let compression := sc.resolveCompressionType compression
  if !(← sendRecv2 rpath compression) then return false
  else
    unlink lpath
    if ← creat lpath then
      match Decoder.make codecs compression with
      | none => Prog.halt .fatal
      | some decoder => recvBlocksV2 lpath decoder
    else return false

end Pull

end FileSync

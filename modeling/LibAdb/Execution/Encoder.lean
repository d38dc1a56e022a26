import LibAdb.Objects.FileSync

-- The encoders of `SendLargeFile` that keep data back, and the loop that drives them.

namespace FileSync

-- What `SendLargeFile` uses of an encoder. Without a result it has failed.
structure Encoder (σ : Type) where
  append : Bytes → σ → σ
  finish : σ → σ
  encode : σ → Option (EncodeResult × Bytes × σ)

structure NullEncoder where
  finished : Bool := false
  input    : Bytes := []
  deriving DecidableEq, Repr

def NullEncoder.encode (e : NullEncoder) : EncodeResult × Bytes × NullEncoder :=
  let rest := e.input.drop syncDataMax
  let result : EncodeResult :=
    if rest = [] then if e.finished then .done else .needInput else .moreOutput
  (result, e.input.take syncDataMax, { e with input := rest })

def nullEncoder : Encoder NullEncoder where
  append block e := { e with input := e.input ++ block }
  finish e       := { e with finished := true }
  encode e       := some e.encode

-- The compressor of another library, which may fail.
structure Compressor where
  State  : Type
  start  : State
  begin  : Bytes
  update : State → Bytes → Option (Bytes × State)
  finish : State → Option Bytes

structure LZ4Encoder (codec : Compressor) where
  finished  : Bool := false
  finalized : Bool := false
  input     : List Bytes := []
  output    : Bytes := codec.begin
  state     : codec.State := codec.start

namespace LZ4Encoder

variable {codec : Compressor}

def maxInputSize : Nat := 65536

def compress (e : LZ4Encoder codec) : Option (LZ4Encoder codec) :=
  match e.input with
  | [] => some e
  | front :: rest =>
    if e.finalized then none
    else do
      let (bytes, state) ← codec.update e.state (front.take maxInputSize)
      let left := front.drop maxInputSize
      return { e with
        state  := state
        output := e.output ++ bytes
        input  := if left = [] then rest else left :: rest }

def finalize (e : LZ4Encoder codec) : Option (LZ4Encoder codec) :=
  if e.finished && !e.finalized then do
    let bytes ← codec.finish e.state
    return { e with finalized := true, output := e.output ++ bytes }
  else some e

-- A block is put out when there is all of one, or at the end.
def outputReady (e : LZ4Encoder codec) : Bool :=
  syncDataMax ≤ e.output.length || e.finalized

def takeOutput (e : LZ4Encoder codec) : EncodeResult × Bytes × LZ4Encoder codec :=
  let size := if e.outputReady then min syncDataMax e.output.length else 0
  let block := e.output.take size
  let e := { e with output := e.output.drop size }
  let result : EncodeResult :=
    if e.finalized && e.output = [] then .done
    else if e.outputReady then .moreOutput
    else .needInput
  (result, block, e)

def encode (e : LZ4Encoder codec) : Option (EncodeResult × Bytes × LZ4Encoder codec) := do
  let e ← e.compress
  let e ← e.finalize
  return e.takeOutput

end LZ4Encoder

def lz4Encoder (codec : Compressor) : Encoder (LZ4Encoder codec) where
  append block e := { e with input := e.input ++ [block] }
  finish e       := { e with finished := true }
  encode         := LZ4Encoder.encode

section Driver

variable {σ : Type} (encoder : Encoder σ)

-- The inner loop: whether the encoder is done, and the blocks that it has put out.
def drainEncoder : Nat → σ → Option (Bool × List Bytes × σ)
  | 0, _ => none
  | n + 1, e => do
    let (result, block, e) ← encoder.encode e
    match result with
    | .error => none
    | .done => return (true, [block], e)
    | .needInput => return (false, [block], e)
    | .moreOutput =>
      let (done, blocks, e) ← drainEncoder n e
      return (done, block :: blocks, e)

-- The blocks for what is read from the file until its end. A second `Finish` ends the process.
def encodeReads (n : Nat) : List Bytes → σ → Option (List Bytes × σ)
  | [], e => do
    let (done, blocks, e) ← drainEncoder encoder n (encoder.finish e)
    if done then return (blocks, e) else none
  | read :: reads, e => do
    let (done, blocks, e) ← drainEncoder encoder n (encoder.append read e)
    if done then return (blocks, e)
    else
      let (more, e) ← encodeReads n reads e
      return (blocks ++ more, e)

end Driver

end FileSync

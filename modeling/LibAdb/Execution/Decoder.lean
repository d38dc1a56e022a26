import LibAdb.Objects.FileSync

-- A chain of blocks without the bytes that were dropped from its front.
structure IOVector where
  blocks   : List Bytes := []
  nonempty : [] ∉ blocks := by simp

namespace IOVector

def empty : IOVector := {}

def size (v : IOVector) : Nat :=
  v.blocks.flatten.length

def isEmpty (v : IOVector) : Bool :=
  v.size = 0

def front (v : IOVector) : Bytes :=
  v.blocks.headD []

def append (v : IOVector) (block : Bytes) : IOVector :=
  if h : block = [] then v
  else ⟨v.blocks ++ [block], by simpa [eq_comm] using ⟨v.nonempty, h⟩⟩

def dropBlocks : Nat → List Bytes → List Bytes
  | _, [] => []
  | n, block :: rest =>
    if n < block.length then block.drop n :: rest else dropBlocks (n - block.length) rest

theorem nil_not_mem_dropBlocks (n : Nat) {blocks : List Bytes} (h : [] ∉ blocks) :
    [] ∉ dropBlocks n blocks := by
  induction blocks generalizing n
  case nil => exact h
  case cons block rest hi =>
    rw [dropBlocks]
    split
    case isTrue hn =>
      intro hm
      rcases List.mem_cons.mp hm with he | hm
      · have := congrArg List.length he
        rw [List.length_nil, List.length_drop] at this
        omega
      · exact h (.tail _ hm)
    case isFalse => exact hi _ fun hm => h (.tail _ hm)

-- Fails the `CHECK` when there are not as many bytes.
def dropFront (v : IOVector) (n : Nat) : Option IOVector :=
  if n ≤ v.size then some ⟨dropBlocks n v.blocks, nil_not_mem_dropBlocks n v.nonempty⟩ else none

end IOVector

namespace FileSync

-- A decompressor of another library. Given input and room for output it reports how much of the
-- input it has used up and what it has put out.
structure Codec (ρ : Type) where
  State : Type
  start : State
  step  : State → Bytes → Nat → Nat × Bytes × ρ × State

inductive BrotliResult where
  | error
  | success
  | needsMoreInput
  | needsMoreOutput
  deriving DecidableEq, Repr

-- The return code of `LZ4F_decompress` and `ZSTD_decompressStream`: an error, zero at the end of the
-- frame, or a hint.
inductive FrameResult where
  | error
  | zero
  | hint
  deriving DecidableEq, Repr

structure Codecs where
  brotli : Codec BrotliResult
  lz4    : Codec FrameResult
  zstd   : Codec FrameResult

inductive Decompressor (codecs : Codecs) where
  | null
  | brotli (state : codecs.brotli.State)
  | lz4 (state : codecs.lz4.State) (done : Bool)
  | zstd (state : codecs.zstd.State) (done : Bool)

structure Decoder (codecs : Codecs) where
  finished     : Bool := false
  input        : IOVector := .empty
  decompressor : Decompressor codecs

namespace Decoder

variable {codecs : Codecs}

-- `CompressionType::Any` ends the process.
def make (codecs : Codecs) : CompressionType → Option (Decoder codecs)
  | .none   => some { decompressor := .null }
  | .brotli => some { decompressor := .brotli codecs.brotli.start }
  | .lz4    => some { decompressor := .lz4 codecs.lz4.start false }
  | .zstd   => some { decompressor := .zstd codecs.zstd.start false }
  | .any    => none

def append (d : Decoder codecs) (block : Bytes) : Decoder codecs :=
  { d with input := d.input.append block }

def finish (d : Decoder codecs) : Option (Decoder codecs) :=
  if d.finished then none else some { d with finished := true }

-- What a call of `Decode` comes to, unless a `CHECK` fails.
abbrev Decoded (codecs : Codecs) := Option (DecodeResult × Bytes × Decoder codecs)

def decodeNull (d : Decoder codecs) : Decoded codecs := do
  let n := min syncDataMax d.input.size
  let output := d.input.blocks.flatten.take n
  let input ← d.input.dropFront n
  let result : DecodeResult :=
    if input.isEmpty then if d.finished then .done else .needInput else .moreOutput
  return (result, output, { d with input })

def decodeBrotli (d : Decoder codecs) (state : codecs.brotli.State) : Decoded codecs := do
  let (consumed, output, code, state) := codecs.brotli.step state d.input.front syncDataMax
  let input ← d.input.dropFront consumed
  let result : DecodeResult :=
    match code with
    | .success => if d.finished then .done else .needInput
    | .needsMoreInput => .needInput
    | .needsMoreOutput => .moreOutput
    | .error => .error
  return (result, output, { d with input, decompressor := .brotli state })

-- LZ4 and Zstd. The decoder keeps to `MoreOutput` until the end of the frame was seen.
def decodeFrame (codec : Codec FrameResult) (d : Decoder codecs) (state : codec.State) (done : Bool)
    (next : codec.State → Bool → Decompressor codecs) : Decoded codecs := do
  let (consumed, output, code, state) := codec.step state d.input.front syncDataMax
  if code = .error then return (.error, [], d)
  let input ← d.input.dropFront consumed
  if code = .zero && !input.isEmpty then
    return (.error, [], { d with input, decompressor := next state done })
  let done := done || code = .zero
  let result : DecodeResult :=
    if d.finished then if input.isEmpty && done then .done else .moreOutput else .needInput
  return (result, output, { d with input, decompressor := next state done })

def decode (d : Decoder codecs) : Decoded codecs :=
  match d.decompressor with
  | .null => d.decodeNull
  | .brotli state => d.decodeBrotli state
  | .lz4 state done => d.decodeFrame codecs.lz4 state done .lz4
  | .zstd state done => d.decodeFrame codecs.zstd state done .zstd

end Decoder

end FileSync

import LibAdb.Execution.Decoder
import Mathlib.Logic.Function.Basic

-- The representation of an `IOVector`. The blocks in front of `startIndex` are spent, and of the first
-- one that is not `beginOffset` bytes were dropped.
structure IOVector.Chain where
  chain       : List Bytes := []
  chainLength : Nat := 0
  beginOffset : Nat := 0
  startIndex  : Nat := 0
  deriving DecidableEq, Repr

namespace IOVector.Chain

def size (c : Chain) : Nat :=
  c.chainLength - c.beginOffset

-- `chain_[start_index_]`; there is no such block if the access is out of bounds.
def front? (c : Chain) : Option Bytes :=
  c.chain[c.startIndex]?

def append (c : Chain) (block : Bytes) : Chain :=
  if block.length = 0 then c
  else { c with chainLength := c.chainLength + block.length, chain := c.chain ++ [block] }

-- The last block goes to the caller.
def clear (c : Chain) : Bytes × Chain :=
  (c.chain.getLast?.getD [], {})

def trimChainFront (c : Chain) : Chain :=
  if c.startIndex ≠ 0 then { c with chain := c.chain.drop c.startIndex, startIndex := 0 } else c

def popFrontBlock (c : Chain) : Option Chain := do
  let block ← c.front?
  let c := { c with
    chainLength := c.chainLength - block.length
    beginOffset := 0
    chain       := c.chain.set c.startIndex []
    startIndex  := c.startIndex + 1 }
  return if c.startIndex > max 4 (c.chain.length / 2) then c.trimChainFront else c

-- The loop of `drop_front`. Every turn but the last one pops a block. The counter has 32 bits.
def dropLoop (len : Nat) : Nat → Chain → Nat → Option Chain
  | 0, _, _ => none
  | fuel + 1, c, dropped =>
    if dropped < len then do
      let block ← c.front?
      let next := block.length - c.beginOffset
      if dropped + next ≤ len then
        dropLoop len fuel (← c.popFrontBlock) ((dropped + next) % 0x100000000)
      else return { c with beginOffset := c.beginOffset + (len - dropped) }
    else return c

def dropFront (c : Chain) (len : Nat) : Option Chain :=
  if len = 0 then some c
  else if len = c.size then some c.clear.2
  else if len < c.size then dropLoop len (c.chain.length + 1) c 0
  else none

-- `operator=(IOVector&&)`: the new vector and what is left of the old one.
def moved (c : Chain) : Chain × Chain :=
  (c, c.clear.2)

-- A block moves to the vector `res` with the offset that it has been read up to.
def gather (res : Chain) (block : Bytes) (offset : Nat) : Chain :=
  let res := res.append block
  if offset ≠ 0 then { res with beginOffset := offset } else res

-- The loop of `take_front` over the blocks that go into the other vector as a whole.
def takeLoop : Nat → Chain → Chain → Nat → Option (Chain × Chain × Nat)
  | 0, _, _, _ => none
  | fuel + 1, c, res, len => do
    let block ← c.front?
    if block.length - c.beginOffset ≤ len then
      let rest := { c with
        chainLength := c.chainLength - block.length
        beginOffset := 0
        startIndex  := c.startIndex + 1 }
      let len := len - (block.length - c.beginOffset)
      if block.length > c.beginOffset then
        takeLoop fuel { rest with chain := c.chain.set c.startIndex [] }
          (res.gather block c.beginOffset) len
      else takeLoop fuel rest res len
    else return (c, res, len)

-- The block that is split between the two vectors. Either its first bytes are copied out, or it is
-- handed over and its tail is copied back.
def splitFront (c res : Chain) (len : Nat) : Option (Chain × Chain) :=
  if len > 0 then do
    let block ← c.front?
    if c.beginOffset ≠ 0 ∨ len < block.length / 2 then
      return (res.append ((block.drop c.beginOffset).take len),
        { c with beginOffset := c.beginOffset + len })
    else
      let tail := block.drop len
      return (res.append (block.take len), { c with
        chainLength := c.chainLength - block.length + tail.length
        chain       := c.chain.set c.startIndex tail })
  else some (res, c)

def takeFront (c : Chain) (len : Nat) : Option (Chain × Chain) :=
  if len = 0 then some ({}, c)
  else if len = c.size then some c.moved
  else if len ≤ c.size then do
    let (c, res, len) ← takeLoop (c.chain.length + 1) c {} len
    c.splitFront res len
  else none

-- A block is only ever made smaller here, so that its capacity suffices.
def trimFront (c : Chain) : Option Chain :=
  if (c.beginOffset = 0 ∧ c.startIndex = 0) ∨ c.chain = [] then some c
  else do
    let block ← c.front?
    let trimmed :=
      if c.beginOffset = block.length then { c with startIndex := c.startIndex + 1 }
      else { c with chain := c.chain.set c.startIndex (block.drop c.beginOffset) }
    return { trimmed with
      chainLength := c.chainLength - c.beginOffset, beginOffset := 0 : Chain }.trimChainFront

def iterateBlocks (c : Chain) : Option (List Bytes) :=
  if c.size = 0 then some []
  else
    match c.chain.drop c.startIndex with
    | [] => some []
    | block :: rest =>
      if c.beginOffset ≤ block.length then some (block.drop c.beginOffset :: rest) else none

-- The copies have to fill the `size()` bytes that were allocated for them.
def coalesce (c : Chain) : Option Bytes :=
  if c.size = 0 then some []
  else do
    let blocks ← c.iterateBlocks
    if blocks.flatten.length = c.size then return blocks.flatten else none

-- What the function is given. It may not read behind the end of the block.
def coalesced (c : Chain) : Option Bytes :=
  if c.chain.length = c.startIndex + 1 then do
    let block ← c.front?
    if c.beginOffset + c.size ≤ block.length then return (block.drop c.beginOffset).take c.size
    else none
  else c.coalesce

def iovecs (c : Chain) : Option (List Bytes) :=
  c.iterateBlocks

def frontData (c : Chain) : Option Bytes :=
  if c.chain = [] then some []
  else do return (← c.front?).drop c.beginOffset

def frontSize (c : Chain) : Option Nat :=
  if c.chain = [] then some 0
  else do return (← c.front?).length - c.beginOffset

-- `coalesce() &&`: the block that is returned and what is left of the vector. The capacity is that of
-- the first block that is not spent, and the blocks behind it may not be copied beyond it.
def coalesceRvalue (c : Chain) (capacity : Nat) : Option (Bytes × Chain) :=
  if c.size = 0 then some ([], c)
  else do
    let block ← c.front?
    if c.beginOffset = block.length ∧ c.chain.length = c.startIndex + 2 then
      let back ← c.chain.getLast?
      return (back, { c with
        chainLength := c.chainLength - back.length
        chain       := c.chain.dropLast })
    else if c.chain.length = c.startIndex + 1 then
      let back ← c.chain.getLast?
      return (back.drop c.beginOffset, { c with
        chainLength := c.chainLength - back.length
        chain       := c.chain.dropLast
        beginOffset := 0 })
    else if capacity ≥ c.size then
      let res := block.drop c.beginOffset ++ (c.chain.drop (c.startIndex + 1)).flatten
      if res.length ≤ capacity then
        -- The blocks that were copied stay in the vector.
        return (res, {
          chainLength := c.chainLength - block.length
          beginOffset := 0
          chain       := c.chain.set c.startIndex []
          startIndex  := c.startIndex + 1 })
      else none
    else return (← c.coalesce, c)

end IOVector.Chain

namespace IOVector

-- The operations on a number of vectors. The result of `take_front` is moved to `dst`; a vector that
-- is constructed from another one is empty before.
inductive Op where
  | append (v : Nat) (block : Bytes)
  | dropFront (v len : Nat)
  | takeFront (v len dst : Nat)
  | trimFront (v : Nat)
  | clear (v : Nat)
  | move (dst src : Nat)
  | coalesce (v : Nat)
  | coalesced (v : Nat)
  | iovecs (v : Nat)
  deriving DecidableEq, Repr

abbrev Chains := Nat → Chain

def step (s : Chains) : Op → Option (Chains × List Bytes)
  | .append v block => some (Function.update s v ((s v).append block), [])
  | .dropFront v len => do return (Function.update s v (← (s v).dropFront len), [])
  | .takeFront v len dst => do
    let (res, rest) ← (s v).takeFront len
    return (Function.update (Function.update s v rest) dst res.moved.1, [])
  | .trimFront v => do return (Function.update s v (← (s v).trimFront), [])
  | .clear v => some (Function.update s v (s v).clear.2, [])
  | .move dst src =>
    let (new, rest) := (s src).moved
    some (Function.update (Function.update s dst new) src rest, [])
  | .coalesce v => do return (s, [← (s v).coalesce])
  | .coalesced v => do return (s, [← (s v).coalesced])
  | .iovecs v => do return (s, ← (s v).iovecs)

def run : Chains → List Op → Option (Chains × List (List Bytes))
  | s, [] => some (s, [])
  | s, op :: ops => do
    let (s, read) ← step s op
    let (s, reads) ← run s ops
    return (s, read :: reads)

abbrev Contents := Nat → Bytes

namespace Contents

def step (s : Contents) : Op → Contents × Bytes
  | .append v block => (Function.update s v (s v ++ block), [])
  | .dropFront v len => (Function.update s v ((s v).drop len), [])
  | .takeFront v len dst =>
    (Function.update (Function.update s v ((s v).drop len)) dst ((s v).take len), [])
  | .trimFront _ => (s, [])
  | .clear v => (Function.update s v [], [])
  | .move dst src => (Function.update (Function.update s dst (s src)) src [], [])
  | .coalesce v | .coalesced v | .iovecs v => (s, s v)

def run : Contents → List Op → Contents × List Bytes
  | s, [] => (s, [])
  | s, op :: ops => ((run (s.step op).1 ops).1, (s.step op).2 :: (run (s.step op).1 ops).2)

-- No length goes beyond the size, which 32 bits are enough for, and nothing is moved to itself.
def admits (s : Contents) : Op → Bool
  | .dropFront v len => len ≤ (s v).length && (s v).length < 0x100000000
  | .takeFront v len _ => len ≤ (s v).length
  | .move dst src => dst != src
  | _ => true

def admitsAll : Contents → List Op → Bool
  | _, [] => true
  | s, op :: ops => s.admits op && admitsAll (s.step op).1 ops

end Contents

inductive Use where
  | append (block : Bytes)
  | dropFront (len : Nat)
  | takeFront (len : Nat)
  | trimFront
  | frontData
  | frontSize
  deriving DecidableEq, Repr

namespace Chain

def use (c : Chain) : Use → Option Chain
  | .append block => some (c.append block)
  | .dropFront len => c.dropFront len
  | .takeFront len => do return (← c.takeFront len).2
  | .trimFront => c.trimFront
  | .frontData => do
    let _ ← c.frontData
    return c
  | .frontSize => do
    let _ ← c.frontSize
    return c

-- No length goes beyond the size that the vector reports, which 32 bits are enough for.
def within (c : Chain) : Use → Bool
  | .dropFront len => len ≤ c.size && c.size < 0x100000000
  | .takeFront len => len ≤ c.size
  | _ => true

-- Every use in turn finds the blocks that it indexes.
def Bears : Chain → List Use → Prop
  | _, [] => True
  | c, u :: us => c.within u → ∃ c', c.use u = some c' ∧ Bears c' us

-- A vector after any uses of it. What is moved from or cleared is empty.
inductive Reachable : Chain → Prop
  | empty : Reachable {}
  | use : Reachable c → c.within u → c.use u = some c' → Reachable c'
  | taken : Reachable c → len ≤ c.size → c.takeFront len = some (res, c') → Reachable res
  | coalesced : Reachable c → c.coalesceRvalue capacity = some (block, c') → Reachable c'

end Chain

end IOVector

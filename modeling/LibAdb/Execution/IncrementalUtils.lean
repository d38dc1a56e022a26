import LibAdb.Execution.Incremental

namespace Incremental

def maxSignatureSize : Nat := 8096

-- A file and the offset up to which it has been read.
structure OpenFile where
  content : Bytes
  offset  : Nat := 0
  deriving DecidableEq, Repr

namespace OpenFile

-- What `ReadFdExactly` gets of `n` bytes; at the end of the file it is less.
def read (f : OpenFile) (n : Nat) : Bytes × OpenFile :=
  let bytes := (f.content.drop f.offset).take n
  (bytes, { f with offset := f.offset + bytes.length })

def seek (f : OpenFile) (n : Nat) : OpenFile :=
  { f with offset := f.offset + n }

def readInt32 (f : OpenFile) : Int32 × OpenFile :=
  let (bytes, f) := f.read 4
  ((UInt32.ofBytes bytes).elim (-1) UInt32.toInt32, f)

def appendInt (f : OpenFile) (bytes : Bytes) : Bytes × OpenFile :=
  let (leVal, f) := f.readInt32
  (bytes ++ leVal.toUInt32.toBytes, f)

-- What a short read leaves of the field are the zeros of `resize`.
def appendBytesWithSize (f : OpenFile) (bytes : Bytes) (bytesLeft : Int) :
    Option (Bytes × Int × OpenFile) :=
  let (leSize, f) := f.readInt32
  if leSize.toInt < 0 ∨ leSize.toInt > bytesLeft then none
  else if leSize = 0 then some (bytes, bytesLeft, f)
  else
    let size := leSize.toInt.toNat
    let (field, f) := f.read size
    some (bytes ++ leSize.toUInt32.toBytes ++ field ++ List.replicate (size - field.length) 0,
      bytesLeft - size, f)

def skipBytesWithSize (f : OpenFile) : Int32 × OpenFile :=
  let (leSize, f) := f.readInt32
  if leSize.toInt < 0 then (-1, f)
  else
    let f := f.seek leSize.toInt.toNat
    (.ofNat f.offset, f)

def idSigHeaders? (f : OpenFile) : Option (Bytes × Int32) := do
  let (signature, f) := f.appendInt []
  let (signature, maxSize, f) ← f.appendBytesWithSize signature (maxSignatureSize - 4)
  let (signature, _, f) ← f.appendBytesWithSize signature maxSize
  let (treeSize, _) := f.readInt32
  return (signature, treeSize)

def readIdSigHeaders (f : OpenFile) : Bytes × Int32 :=
  f.idSigHeaders?.getD ([], 0)

def skipIdSigHeaders (f : OpenFile) : Int × Int32 :=
  let f := f.seek 4
  let (_, f) := f.skipBytesWithSize
  let (offset, f) := f.skipBytesWithSize
  let (treeSize, _) := f.readInt32
  (offset.toInt + 4, treeSize)

end OpenFile

def pread (content : Bytes) (n : Nat) (offset : Int) : Bytes :=
  if offset < 0 then [] else (content.drop offset.toNat).take n

-- `valueAt<int32_t>` and `valueAt<int16_t>`: all bits are set where the file has too few bytes.
def valueAt32 (content : Bytes) (offset : Int) : Int32 :=
  (UInt32.ofBytes (pread content 4 offset)).elim (-1) UInt32.toInt32

def valueAt16 (content : Bytes) (offset : Int) : Int16 :=
  match pread content 2 offset with
  | [a, b] => .ofNat (a.toNat + 256 * b.toNat)
  | _      => -1

def zipEocdRecMinSize : Nat := 22
def zipEocdRecSig : Int32 := 0x06054b50
def zipEocdCentralDirSizeFieldOffset : Nat := 12
def zipEocdCommentLengthFieldOffset : Nat := 20

def eocdOffset (fileSize : Nat) (commentLen : Int16) : Int :=
  fileSize - zipEocdRecMinSize - commentLen.toInt

def isEocd (content : Bytes) (fileSize : Nat) (commentLen : Int16) : Bool :=
  valueAt32 content (eocdOffset fileSize commentLen) = zipEocdRecSig &&
    valueAt16 content (eocdOffset fileSize commentLen + zipEocdCommentLengthFieldOffset) = commentLen

-- The loop from the end of the file backward. The counter has 16 bits, with a sign.
def searchEocd (content : Bytes) (fileSize : Nat) : Nat → Int16 → Option Int
  | 0, _ => none
  | fuel + 1, commentLen =>
    if commentLen.toInt < fileSize then
      if isEocd content fileSize commentLen then some (eocdOffset fileSize commentLen)
      else searchEocd content fileSize fuel (commentLen + 1)
    else some (-1)

def centralDirOffset (content : Bytes) (fileSize fuel : Nat) : Option Int := do
  let eocdOffset ← searchEocd content fileSize fuel 0
  if eocdOffset < 0 then return -1
  let cdLen := valueAt32 content (eocdOffset + zipEocdCentralDirSizeFieldOffset)
  return eocdOffset - cdLen.toInt

end Incremental

import LibAdb.Execution.IncrementalUtils
import LibAdb.Objects.Install

namespace Incremental

-- The blocks of an archive that are sent first.

def offsetToBlockIndex (offset : Int) : Int32 :=
  .ofInt (offset / blockSize)

def iota (start : Int32) : Nat → List Int32
  | 0     => []
  | n + 1 => start :: iota (start + 1) n

-- There is no result where `iota` begins behind the end of the vector.
def appendBlocks (start count : Int32) (blocks : List Int32) : Option (List Int32) :=
  if count = 1 then some (blocks ++ [start])
  else if count < 0 then none
  else some (blocks ++ iota start count.toInt.toNat)

-- `remove_if` with the elements that have been seen.
def unduplicateFrom [BEq α] (uniques : List α) : List α → List α
  | []     => []
  | t :: v =>
    if uniques.contains t then unduplicateFrom uniques v else t :: unduplicateFrom (t :: uniques) v

def unduplicate [BEq α] (v : List α) : List α :=
  unduplicateFrom [] v

-- `valueAt<int64_t>`.
def valueAt64 (content : Bytes) (offset : Int) : Int64 :=
  let bytes := pread content 8 offset
  if bytes.length = 8 then .ofNat (bytes.foldr (fun b n => b.toNat + 256 * n) 0) else -1

def apkSigBlockMinSize : Nat := 32
def apkSigBlockFooterSize : Nat := 24
def apkSigBlockMagicHi : Int64 := 0x3234206b636f6c42
def apkSigBlockMagicLo : Int64 := 0x20676953204b5041

-- The fuel is that of the search for the end record.
def signerBlockOffset (content : Bytes) (fileSize fuel : Nat) : Option Int := do
  let cdOffset ← centralDirOffset content fileSize fuel
  if cdOffset < 0 then some (-1)
  else if cdOffset < apkSigBlockMinSize || valueAt64 content (cdOffset - 16) != apkSigBlockMagicLo ||
      valueAt64 content (cdOffset - 8) != apkSigBlockMagicHi then some (-1)
  else
    let signerSizeInFooter := valueAt32 content (cdOffset - apkSigBlockFooterSize)
    let signerBlockOffset := cdOffset - signerSizeInFooter.toInt - 8
    if signerBlockOffset < 0 then some (-1)
    else
      let signerSizeInHeader := valueAt32 content signerBlockOffset
      if signerSizeInFooter ≠ signerSizeInHeader then some (-1) else some signerBlockOffset

def maxZipCommentSize : Nat := 64 * 1024
def numBlocksInEocdSearch : Int32 := .ofNat (maxZipCommentSize / blockSize + 1)

def zipPriorityBlocks (signerBlockOffset : Int) (fileSize : Nat) : Option (List Int32) := do
  let signerBlockIndex := offsetToBlockIndex signerBlockOffset
  let lastBlockIndex := offsetToBlockIndex fileSize
  let numPriorityBlocks := lastBlockIndex - signerBlockIndex + 1
  let blocks ← if numPriorityBlocks > numBlocksInEocdSearch then do
      let blocks ← appendBlocks (lastBlockIndex - numBlocksInEocdSearch + 1) numBlocksInEocdSearch []
      appendBlocks signerBlockIndex (numPriorityBlocks - numBlocksInEocdSearch) blocks
    else appendBlocks signerBlockIndex numPriorityBlocks []
  appendBlocks 0 1 blocks

-- What the ZIP library tells about an entry.
structure ZipEntry where
  name               : Bytes
  offset             : Int
  stored             : Bool
  uncompressedLength : Nat
  compressedLength   : Nat
  hasDataDescriptor  : Bool
  deriving DecidableEq, Repr

def ZipEntry.length (e : ZipEntry) : Nat :=
  (if e.stored then e.uncompressedLength else e.compressedLength) +
    if e.hasDataDescriptor then 16 else 0

def ZipEntry.endOffset (e : ZipEntry) : Int :=
  (e.offset + e.length).bmod 0x10000000000000000

def additionalMatches : List Bytes :=
  ["resources.arsc", "AndroidManifest.xml", "classes.dex"].map ascii

def matcher (entryName : Bytes) : Bool :=
  (ascii "lib/").isPrefixOf entryName && (ascii ".so").isSuffixOf entryName ||
    additionalMatches.contains entryName

-- Of `classes.dex` only the head is needed.
def appendEntry (blocks : List Int32) (e : ZipEntry) : Option (List Int32) :=
  let startBlockIndex := offsetToBlockIndex e.offset
  if e.name = ascii "classes.dex" then appendBlocks startBlockIndex 2 blocks
  else appendBlocks startBlockIndex (offsetToBlockIndex e.endOffset - startBlockIndex + 1) blocks

-- The archive has no entries if it cannot be opened or iterated.
def installationPriorityBlocks (archive : List ZipEntry) : Option (List Int32) :=
  (archive.filter (matcher ·.name)).foldlM appendEntry []

def priorityBlocksForFile (filepath content : Bytes) (fileSize fuel : Nat)
    (archive : List ZipEntry) : Option (List Int32) :=
  if !filepath.endsWithIgnoreCase ".apk" then some []
  else do
    let signerOffset ← signerBlockOffset content fileSize fuel
    if signerOffset < 0 then some []
    else
      let priorityBlocks ← zipPriorityBlocks signerOffset fileSize
      let installationPriorityBlocks ← installationPriorityBlocks archive
      some (unduplicate (priorityBlocks ++ installationPriorityBlocks))

-- The file that the server is made for.
def File.ofArchive (filepath content : Bytes) (fuel : Nat) (archive : List ZipEntry)
    (hasTree : Bool) : Option File :=
  (priorityBlocksForFile filepath content content.length fuel archive).map fun blocks =>
    { size := content.length, hasTree, priorityBlocks := blocks.map Int32.toInt }

end Incremental

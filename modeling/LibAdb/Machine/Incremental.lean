import LibAdb.Execution.Incremental
import Mathlib.Data.List.Nodup

namespace Incremental

section Trees

theorem treeBlocks_le (n count : Nat) : treeBlocks n count ≤ count - 1 := by
  induction n generalizing count
  case zero => exact Nat.zero_le _
  case succ n hi =>
    rw [treeBlocks]
    split
    case isTrue h =>
      have above := hi ((count + hashesPerBlock - 1) / hashesPerBlock)
      simp only [show hashesPerBlock = 128 from rfl] at above ⊢
      omega
    case isFalse => exact Nat.zero_le _

theorem le_treeBlocks {count : Nat} (h : 1 < count) :
    (count + hashesPerBlock - 1) / hashesPerBlock ≤ treeBlocks count count := by
  obtain ⟨n, rfl⟩ : ∃ n, count = n + 1 := ⟨count - 1, by omega⟩
  rw [treeBlocks, if_pos h]
  exact Nat.le_add_right ..

theorem int32_eq {n : Nat} (h : n ≤ 0x7fffffff) : int32 n = n := by
  rw [int32]
  exact Int.bmod_eq_of_le (by omega) (by omega)

-- The largest size for which the number of blocks can be rounded up to whole hash blocks in 32 bits.
def fileSizeMax : Nat := (0x80000000 - hashesPerBlock) * blockSize

theorem File.leafIdx_bounds {f : File} (hs : blockSize < f.size)
    (hl : f.size ≤ fileSizeMax) (hb : 0 ≤ b) (hn : b < f.blocks) :
    0 ≤ f.leafNodesOffset ∧ f.leafNodesOffset ≤ f.leafIdx b ∧ f.leafIdx b < f.nodes := by
  have count : 1 + (f.size - 1) / blockSize = (f.size + blockSize - 1) / blockSize := by
    simp only [show blockSize = 4096 from rfl] at hs ⊢
    omega
  have nodes : f.nodes = treeBlocks (1 + (f.size - 1) / blockSize) (1 + (f.size - 1) / blockSize) := by
    rw [File.nodes, verityTreeBlocksForFile, if_neg (Nat.ne_zero_of_lt hs)]
  rw [count] at nodes
  have many : 1 < (f.size + blockSize - 1) / blockSize := by
    simp only [show blockSize = 4096 from rfl] at hs ⊢
    omega
  have few : (f.size + blockSize - 1) / blockSize + 127 ≤ 0x7fffffff := by
    simp only [fileSizeMax, hashesPerBlock, digestSize, blockSize] at hl ⊢
    omega
  have lower := le_treeBlocks many
  have upper := treeBlocks_le ((f.size + blockSize - 1) / blockSize)
    ((f.size + blockSize - 1) / blockSize)
  rw [← nodes] at lower upper
  have blocks : f.blocks = ((f.size + blockSize - 1) / blockSize : Nat) := by
    rw [File.blocks, numBytesToNumBlocks, int32_eq (Nat.le_of_add_right_le few)]
  have fits : f.nodes ≤ 0x7fffffff := Nat.le_trans upper (Nat.le_trans (Nat.sub_le ..) (Nat.le_of_add_right_le few))
  have leaves : f.leafNodesCount =
      (((f.size + blockSize - 1) / blockSize + 127) / hashesPerBlock : Nat) := by
    have sum : f.blocks + hashesPerBlock - 1 = ((f.size + blockSize - 1) / blockSize + 127 : Nat) := by
      rw [blocks, show hashesPerBlock = 128 from rfl]
      omega
    rw [leafNodesCount, sum, int32_eq few, Int.tdiv_eq_ediv_of_nonneg (Int.natCast_nonneg _)]
    rfl
  rw [blocks] at hn
  simp only [leafIdx, leafNodesOffset, leaves, int32_eq fits]
  clear hl hs count
  generalize (f.size + blockSize - 1) / blockSize = n at *
  simp only [show hashesPerBlock = 128 from rfl] at lower ⊢
  omega

end Trees

section Format

def parseRecord : Bytes → Option (Record × Bytes)
  | a :: b :: blockType :: compressionType :: i₃ :: i₂ :: i₁ :: i₀ :: m :: n :: rest =>
    let size := 256 * m.toNat + n.toNat
    if size ≤ rest.length then
      some ({
        fileId   := .ofNat (256 * a.toNat + b.toNat)
        blockIdx := (UInt32.ofBytes [i₀, i₁, i₂, i₃]).getD 0
        bytes    := rest.take size
        blockType, compressionType }, rest.drop size)
    else none
  | _ => none

def parseRecords : Nat → Bytes → Option (List Record)
  | 0, bytes => if bytes = [] then some [] else none
  | n + 1, bytes =>
    if bytes = [] then some []
    else (parseRecord bytes).bind fun r => (parseRecords n r.2).map (r.1 :: ·)

def parseChunks : Nat → Bytes → Option (List Bytes)
  | _, [] => some []
  | n + 1, a :: b :: c :: d :: rest =>
    let size := ((UInt32.ofBytes [d, c, b, a]).getD 0).toNat
    if size ≤ rest.length then (parseChunks n (rest.drop size)).map (rest.take size :: ·) else none
  | _, _ => none

def chunk (payload : Bytes) : Bytes :=
  be32 (.ofNat payload.length) ++ payload

theorem be16_value (n : UInt16) :
    256 * (n.toNat / 256).toUInt8.toNat + n.toNat.toUInt8.toNat = n.toNat := by
  have := n.toNat_lt
  simp
  omega

theorem parseRecord_encode (rest : Bytes) (h : r.bytes.length < 0x10000) :
    parseRecord (r.encode ++ rest) = some (r, rest) := by
  have size : (UInt16.ofNat r.bytes.length).toNat = r.bytes.length := Nat.mod_eq_of_lt h
  have total := be16_value (.ofNat r.bytes.length)
  rw [size] at total
  have idx := UInt32.ofBytes_toBytes r.blockIdx
  rw [UInt32.toBytes] at idx
  simp only [Record.encode, be16, be32, UInt32.toBytes, List.reverse_cons, List.reverse_nil,
    List.nil_append, List.cons_append, parseRecord, idx, be16_value, size, total, Option.getD_some,
    UInt16.ofNat_toNat]
  rw [if_pos (by simp), List.take_left' rfl, List.drop_left' rfl]

theorem parseRecords_encode {records : List Record} (h : ∀ r ∈ records, r.bytes.length < 0x10000)
    (hn : records.length ≤ n) : parseRecords n (records.flatMap Record.encode) = some records := by
  induction records generalizing n
  case nil => cases n <;> rfl
  case cons r records hi =>
    obtain ⟨n, rfl⟩ : ∃ m, n = m + 1 := ⟨n - 1, by simp at hn; omega⟩
    have first := parseRecord_encode (records.flatMap Record.encode) (h r (.head _))
    have more := hi (n := n) (fun r hr => h r (.tail _ hr)) (by simpa using hn)
    have nonempty : r.encode ++ records.flatMap Record.encode ≠ [] := by simp [Record.encode, be16]
    rw [List.flatMap_cons, parseRecords, if_neg nonempty, first, Option.bind_some, more]
    rfl

theorem parseChunks_chunk {chunks : List Bytes} (h : ∀ c ∈ chunks, c.length < 0x100000000)
    (hn : chunks.length ≤ n) : parseChunks n (chunks.flatMap chunk) = some chunks := by
  induction chunks generalizing n
  case nil => cases n <;> rfl
  case cons c chunks hi =>
    obtain ⟨n, rfl⟩ : ∃ m, n = m + 1 := ⟨n - 1, by simp at hn; omega⟩
    have more := hi (n := n) (fun c hc => h c (.tail _ hc)) (by simpa using hn)
    have size : (UInt32.ofNat c.length).toNat = c.length := Nat.mod_eq_of_lt (h c (.head _))
    have length := UInt32.ofBytes_toBytes (.ofNat c.length)
    rw [UInt32.toBytes] at length
    simp only [List.flatMap_cons, chunk, be32, UInt32.toBytes, List.reverse_cons, List.reverse_nil,
      List.nil_append, List.cons_append, parseChunks, length, size, Option.getD_some]
    rw [if_pos (by simp), List.take_left' rfl, List.drop_left' rfl]
    exact congrArg _ more

end Format

end Incremental

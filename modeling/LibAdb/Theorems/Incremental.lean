import LibAdb.Machine.Incremental
import LibAdb.Theorems.PriorityBlocks

namespace Incremental

open Prog

def Record.isData (r : Record) : Bool :=
  r.blockType = 0 && r.fileId ≠ 0xffff

def Record.isTree (r : Record) (fileId : UInt16) (i : Nat) : Prop :=
  r.blockType = 1 ∧ r.fileId = fileId ∧ r.blockIdx = .ofNat i

-- The leaf above a block, and all that is not a leaf.
def File.onPath (f : File) (blockIdx : Nat) (i : Nat) : Prop :=
  i = f.leafIdx blockIdx ∨ i < f.leafNodesOffset

-- The hash blocks that a block needs are sent before it.
def Preceded (files : List File) (sent : List Record) : Prop :=
  ∀ before r after, sent = before ++ r :: after → r.isData →
    ∀ f, files[r.fileId.toNat]? = some f → f.hasTree →
      ∀ i, f.onPath r.blockIdx.toNat i → ∃ h ∈ before, h.isTree r.fileId i

-- What was written is chunks of the records that were sent, without those that are pending.
def Chunked (s : Server) : Prop :=
  ∃ (chunks : List Bytes) (records rest : List Record),
    s.written = ascii "OKAY" ++ chunks.flatMap chunk ∧
      (∀ c ∈ chunks, c.length < pendingBlocksSize) ∧ s.sent = records ++ rest ∧
      chunks.flatten = records.flatMap Record.encode ∧ s.pending = rest.flatMap Record.encode

structure Wire (s : Server) : Prop where
  bytes : Chunked s
  room  : 4 + s.pending.length ≤ chunkFlushSize

-- The requests and the files that the server is made for.
structure Valid (host : Host) (files : List File) : Prop where
  prefetch : ∀ n r, host.request n = some r → r.requestType = .prefetch →
    r.fileId.toInt < files.length
  priority : ∀ f ∈ files, ∀ b ∈ f.priorityBlocks, 0 ≤ b
  trees    : ∀ f ∈ files, f.hasTree → blockSize < f.size ∧ f.size ≤ fileSizeMax

-- Every block of a tree that is not a leaf can be read.
def InnerReads (host : Host) (files : List File) : Prop :=
  ∀ n file (f : File) (i : Nat), files[file]? = some f → i < f.leafNodesOffset →
    ∃ bytes, host.readTree n file i = some bytes ∧ bytes ≠ []

structure Sound (host : Host) (files : List File) (s : Server) : Prop where
  wire     : Wire s
  small    : ∀ r ∈ s.sent, r.bytes.length ≤ blockSize
  flagged  : ∀ r ∈ s.sent, r.isData → s.sentBlocks r.fileId.toNat r.blockIdx.toNat
  once     : ((s.sent.filter Record.isData).map fun r => (r.fileId, r.blockIdx)).Nodup
  ended    : s.sent.countP (·.fileId = 0xffff) = if s.doneSent then 1 else 0
  trees    : ∀ file i, s.sentTreeBlocks file i → ∃ r ∈ s.sent, r.isTree (.ofNat file) i
  preceded : InnerReads host files → Preceded files s.sent
  queue    : ∀ p ∈ s.prefetches, p.file < min 0x8000 files.length ∧ 0 ≤ p.overallIndex ∧
    0 ≤ p.priorityIndex

-- A file whose tree was begun has all of it but leaves.
def Complete (files : List File) (trees : Nat → Nat → Bool) (file : Nat) : Prop :=
  ∀ f, files[file]? = some f → (∃ i, trees file i) → ∀ i : Nat, i < f.leafNodesOffset → trees file i

section Records

variable {host : Host} {files : List File} {s : Server} {r : Record}

theorem toNat_ofNat (h : file < 0x8000) : (UInt16.ofNat file).toNat = file :=
  Nat.mod_eq_of_lt (by omega)

theorem ofNat_ne_last (h : file < 0x8000) : UInt16.ofNat file ≠ 0xffff := by
  intro he
  have := congrArg UInt16.toNat he
  rw [toNat_ofNat h] at this
  simp at this
  omega

theorem Record.length_encode (r : Record) : r.encode.length = 10 + r.bytes.length := by
  simp [encode, be16, be32, UInt32.toBytes]
  omega

theorem Server.flush_eq (s : Server) : s.flush = { s with
    pending := s.flush.pending
    written := s.flush.written } := by
  unfold Server.flush
  split <;> rfl

theorem Server.send_eq (s : Server) (r : Record) (flush : Bool) : s.send r flush = { s with
    sent    := s.sent ++ [r]
    pending := (s.send r flush).pending
    written := (s.send r flush).written } := by
  dsimp only [send]
  split
  · exact Server.flush_eq _
  · rfl

theorem Chunked.flush (h : Chunked s) (hl : s.pending.length < pendingBlocksSize) :
    Wire s.flush := by
  unfold Server.flush
  split
  case isTrue he => exact ⟨h, by rw [he]; decide⟩
  case isFalse =>
    obtain ⟨chunks, records, rest, hw, hc, hs, hr, hp⟩ := h
    refine ⟨⟨chunks ++ [s.pending], s.sent, [], ?_, ?_, ?_, ?_, rfl⟩, show 4 ≤ chunkFlushSize by decide⟩
    · simp [hw, chunk]
    · intro c hm
      rcases List.mem_append.mp hm with hm | hm
      · exact hc c hm
      · exact List.mem_singleton.mp hm ▸ hl
    · exact (List.append_nil _).symm
    · simp [hr, hp, hs]

theorem Wire.flush (h : Wire s) : Wire s.flush := by
  have room := h.room
  refine h.bytes.flush ?_
  simp only [pendingBlocksSize, chunkFlushSize, blockSize] at room ⊢
  omega

theorem Wire.send (h : Wire s) (hb : r.bytes.length ≤ blockSize) (flush : Bool) :
    Wire (s.send r flush) := by
  let t : Server := { s with pending := s.pending ++ r.encode, sent := s.sent ++ [r] }
  have bytes : Chunked t := by
    obtain ⟨chunks, records, rest, hw, hc, hs, hr, hp⟩ := h.bytes
    refine ⟨chunks, records, rest ++ [r], hw, hc, ?_, hr, ?_⟩
    · simp [t, hs]
    · simp [t, hp]
  have room := h.room
  have length : (s.pending ++ r.encode).length = s.pending.length + (10 + r.bytes.length) := by
    rw [← r.length_encode, List.length_append]
  dsimp only [Server.send]
  split
  case isTrue =>
    refine Chunked.flush bytes ?_
    simp only [pendingBlocksSize, chunkFlushSize, blockSize] at room hb ⊢
    omega
  case isFalse hf =>
    simp only [Bool.or_eq_true, decide_eq_true_eq, not_or, Nat.not_lt] at hf
    exact ⟨bytes, hf.2⟩

theorem Preceded.append (h : Preceded files sent)
    (hr : r.isData → ∀ f, files[r.fileId.toNat]? = some f → f.hasTree →
      ∀ i, f.onPath r.blockIdx.toNat i → ∃ h ∈ sent, h.isTree r.fileId i) :
    Preceded files (sent ++ [r]) := by
  intro before q after he hd f hf ht i hi
  rcases List.eq_nil_or_concat after with rfl | ⟨after, last, rfl⟩
  · obtain ⟨rfl, hq⟩ := List.append_inj' he rfl
    cases hq
    exact hr hd f hf ht i hi
  · rw [List.concat_eq_append, ← List.cons_append, ← List.append_assoc] at he
    exact h before q after (List.append_inj_left' he rfl) hd f hf ht i hi

theorem Sound.send (h : Sound host files s) (hb : r.bytes.length ≤ blockSize) (flush : Bool)
    (data : r.isData → s.sentBlocks r.fileId.toNat r.blockIdx.toNat ∧
      ∀ q ∈ s.sent, q.isData → q.fileId = r.fileId → q.blockIdx ≠ r.blockIdx)
    (path : InnerReads host files → r.isData → ∀ f, files[r.fileId.toNat]? = some f → f.hasTree →
      ∀ i, f.onPath r.blockIdx.toNat i → ∃ h ∈ s.sent, h.isTree r.fileId i)
    (ends : (s.sent ++ [r]).countP (·.fileId = 0xffff) = if e then 1 else 0) :
    Sound host files { s.send r flush with doneSent := e } := by
  have wire := h.wire.send hb flush
  rw [Server.send_eq] at wire ⊢
  constructor
  case wire => exact ⟨wire.bytes, wire.room⟩
  case small =>
    intro q hq
    rcases List.mem_append.mp hq with hq | hq
    · exact h.small q hq
    · exact List.mem_singleton.mp hq ▸ hb
  case flagged =>
    intro q hq hd
    rcases List.mem_append.mp hq with hq | hq
    · exact h.flagged q hq hd
    · cases List.mem_singleton.mp hq
      exact (data hd).1
  case once =>
    rw [List.filter_append, List.map_append]
    refine List.nodup_append.mpr ⟨h.once, ?_, ?_⟩
    · cases hd : r.isData <;> simp [hd]
    · rintro _ ha _ hb rfl
      obtain ⟨q, hq, he⟩ := List.mem_map.mp ha
      obtain ⟨p, hp, rfl⟩ := List.mem_map.mp hb
      obtain ⟨hp, hd⟩ := List.mem_filter.mp hp
      cases List.mem_singleton.mp hp
      have hq := List.mem_filter.mp hq
      exact (data hd).2 q hq.1 hq.2 (congrArg Prod.fst he) (congrArg Prod.snd he)
  case ended => exact ends
  case trees =>
    intro file i hi
    obtain ⟨q, hq, ht⟩ := h.trees file i hi
    exact ⟨q, List.mem_append_left _ hq, ht⟩
  case preceded => exact fun k => (h.preceded k).append (path k)
  case queue => exact h.queue

theorem Sound.send_block (h : Sound host files s) (hb : r.bytes.length ≤ blockSize) (flush : Bool)
    (hr : r.fileId ≠ 0xffff)
    (data : r.isData → s.sentBlocks r.fileId.toNat r.blockIdx.toNat ∧
      ∀ q ∈ s.sent, q.isData → q.fileId = r.fileId → q.blockIdx ≠ r.blockIdx)
    (path : InnerReads host files → r.isData → ∀ f, files[r.fileId.toNat]? = some f → f.hasTree →
      ∀ i, f.onPath r.blockIdx.toNat i → ∃ h ∈ s.sent, h.isTree r.fileId i) :
    Sound host files (s.send r flush) := by
  have sound := h.send hb flush data path (e := s.doneSent) (by simp [h.ended, hr])
  rw [Server.send_eq] at sound ⊢
  exact sound

end Records

def Faults (host : Host) (files : List File) (h : Option Fault) (s : Server) : Prop :=
  Sound host files s ∧ h ≠ some .overflow ∧ (h = some .index → ¬Valid host files)

section Sending

variable {host : Host} {files : List File} {P : Server → Prop}

abbrev Keeps (host : Host) (files : List File) (P : Server → Prop) (x : ServerM α)
    (Q : α → Server → Prop) : Prop :=
  Triple (Faults host files) P x Q

theorem triple_index (hs : ∀ s, P s → Sound host files s)
    (hi : ∀ s, P s → Valid host files → 0 ≤ i ∧ i < size) :
    Keeps host files P (index i size) fun j s => P s ∧ (j : Int) = i ∧ (j : Int) < size := by
  unfold index
  split
  case isTrue h => exact .pure fun s hp => ⟨hp, Int.toNat_of_nonneg h.1, by omega⟩
  case isFalse h => exact .halt fun s hp => ⟨hs s hp, nofun, fun _ hv => h (hi s hp hv)⟩

theorem triple_ask {answer : Nat → ρ} {Q : ρ → Server → Prop}
    (h : ∀ s : Server, P s → Q (answer s.clock) { s with clock := s.clock + 1 }) :
    Keeps host files P (ask answer) Q :=
  .act (f := fun s : Server => (answer s.clock, { s with clock := s.clock + 1 })) h

theorem triple_modify {f : Server → Server} {Q : Unit → Server → Prop} (h : ∀ s, P s → Q () (f s)) :
    Keeps host files P (Prog.modify f) Q :=
  .act (f := fun s => ((), f s)) h

theorem triple_get {f : Server → ServerM α} {Q : α → Server → Prop}
    (h : ∀ t, Keeps host files (fun s => s = t ∧ P s) (f t) Q) :
    Keeps host files P (Prog.get >>= f) Q :=
  .bind (R := fun t s => s = t ∧ P s) (.act (f := fun s => (s, s)) fun _ hp => ⟨rfl, hp⟩) h

theorem triple_send {Q : Unit → Server → Prop} (hb : r.bytes.length ≤ blockSize)
    (hs : ∀ s, P s → Sound host files s) (hq : ∀ s, P s → Q () (s.send r flush)) :
    Keeps host files P (send r flush) Q := by
  refine triple_get fun t => ?_
  split
  case isTrue hl =>
    refine .halt fun s hp => absurd hl (Nat.not_lt.mpr ?_)
    obtain ⟨rfl, hp⟩ := hp
    have room := (hs s hp).wire.room
    have := r.length_encode
    rw [List.length_append]
    simp only [pendingBlocksSize, chunkFlushSize, blockSize] at room hb ⊢
    omega
  case isFalse => exact triple_modify fun s hp => hq s hp.2

variable {R : (Nat → Nat → Bool) → (Nat → Nat → Bool) → Prop} {file : Nat} {f : File}

theorem triple_sendTreeBlock (hf : file < 0x8000) :
    Keeps host files (fun s => Sound host files s ∧ R s.sentBlocks s.sentTreeBlocks)
      (sendTreeBlock host file i) fun sent s => Sound host files s ∧
        R s.sentBlocks s.sentTreeBlocks ∧ if sent then ∃ r ∈ s.sent, r.isTree (.ofNat file) i
          else ∃ n, ∀ bytes, host.readTree n file i = some bytes → bytes = [] := by
  refine .bind (R := fun bytes s => Sound host files s ∧ R s.sentBlocks s.sentTreeBlocks ∧
    ∃ n, bytes = host.readTree n file i) (triple_ask fun s hp => ?_) fun bytes => ?_
  · exact ⟨{ hp.1 with wire := ⟨hp.1.wire.bytes, hp.1.wire.room⟩ }, hp.2, s.clock, rfl⟩
  · generalize hb : bytes.map (·.take blockSize) = taken
    rcases taken with _ | _ | ⟨b, rest⟩
    case none =>
      refine .pure fun s hp => ⟨hp.1, hp.2.1, ?_⟩
      obtain ⟨n, rfl⟩ := hp.2.2
      exact ⟨n, fun bytes h => by simp [h] at hb⟩
    case some.nil =>
      refine .pure fun s hp => ⟨hp.1, hp.2.1, ?_⟩
      obtain ⟨n, rfl⟩ := hp.2.2
      refine ⟨n, fun bytes h => ?_⟩
      simpa [h, blockSize] using hb
    case some.cons =>
      have small : (b :: rest).length ≤ blockSize := by
        obtain ⟨bytes, -, he⟩ := Option.map_eq_some_iff.mp hb
        rw [← he]
        exact List.length_take_le ..
      refine .bind (triple_send small (fun s hp => hp.1) fun s hp => ?_) fun _ => .pure fun _ h => h
      refine ⟨hp.1.send_block small false (ofNat_ne_last hf) (by rintro ⟨⟩) (by rintro _ ⟨⟩), ?_⟩
      rw [Server.send_eq]
      exact ⟨hp.2.1, _, List.mem_append_right _ (.head _), rfl, rfl, rfl⟩

theorem Sound.markTree (h : Sound host files s) (hr : ∃ r ∈ s.sent, r.isTree (.ofNat file) i) :
    Sound host files { s with sentTreeBlocks := mark s.sentTreeBlocks file i } where
  wire := ⟨h.wire.bytes, h.wire.room⟩
  small := h.small
  flagged := h.flagged
  once := h.once
  ended := h.ended
  trees file' i' hm := by
    simp only [mark, Bool.or_eq_true, Bool.and_eq_true, decide_eq_true_eq] at hm
    obtain hm | ⟨rfl, rfl⟩ := hm
    · exact h.trees file' i' hm
    · exact hr
  preceded := h.preceded
  queue := h.queue

theorem Complete.mark_ne (h : Complete files trees file') (hn : file' ≠ file) :
    Complete files (mark trees file i) file' := by
  simpa [Complete, mark, hn] using h

-- A tree that is being sent: what is not a leaf is sent or is still to come.
structure Begun (files : List File) (file : Nat) (f : File) (rest : List Nat)
    (trees : Nat → Nat → Bool) : Prop where
  inner  : ∀ i : Nat, i < f.leafNodesOffset → i ∈ rest ∨ trees file i
  others : ∀ file' ≠ file, Complete files trees file'

theorem Begun.mark (h : Begun files file f (i :: rest) trees) :
    Begun files file f rest (mark trees file i) where
  inner j hj := by
    obtain hj | hj := h.inner j hj
    · obtain rfl | hj := List.mem_cons.mp hj
      · exact .inr (by simp [Incremental.mark])
      · exact .inl hj
    · exact .inr (by simp [Incremental.mark, hj])
  others file' hn := (h.others file' hn).mark_ne hn

theorem Begun.complete (h : Begun files file f [] trees) (hx : files[file]? = some f)
    (file' : Nat) : Complete files trees file' := by
  by_cases hn : file' = file
  case neg => exact h.others file' hn
  case pos =>
    cases hn
    intro g hg _ i hi
    cases hx.symm.trans hg
    exact (h.inner i hi).resolve_left List.not_mem_nil

-- The state between two blocks. `B` is what is known about the blocks that were sent.
structure Steady (host : Host) (files : List File) (B : (Nat → Nat → Bool) → Prop)
    (s : Server) : Prop where
  sound    : Sound host files s
  blocks   : B s.sentBlocks
  complete : InnerReads host files → ∀ file, Complete files s.sentTreeBlocks file

variable {B : (Nat → Nat → Bool) → Prop} {b l : Nat}

theorem triple_sendInnerBlocks (hf : file < 0x8000) (hx : files[file]? = some f)
    (hn : Valid host files → f.leafNodesOffset ≤ f.nodes)
    (he : ∀ i : Nat, i ∈ rest → i < f.leafNodesOffset) :
    Keeps host files
      (fun s => Sound host files s ∧ B s.sentBlocks ∧ s.sentTreeBlocks file l ∧
        (InnerReads host files → Begun files file f rest s.sentTreeBlocks))
      (sendInnerBlocks host file f rest) fun _ s => Steady host files B s ∧
        s.sentTreeBlocks file l := by
  induction rest
  case nil =>
    exact .pure fun s hs => ⟨⟨hs.1, hs.2.1, fun k => (hs.2.2.2 k).complete hx⟩, hs.2.2.1⟩
  case cons i rest hi =>
    have inner := he i (.head _)
    refine .bind (triple_sendTreeBlock hf (R := fun blocks trees => B blocks ∧ trees file l ∧
      (InnerReads host files → Begun files file f (i :: rest) trees))) fun sent => ?_
    cases sent
    case false =>
      refine .pure fun s hs => ?_
      obtain ⟨hs, ⟨hB, hl, -⟩, n, hr⟩ := hs
      refine ⟨⟨hs, hB, fun k => ?_⟩, hl⟩
      obtain ⟨bytes, hb, hne⟩ := k n file f i hx inner
      exact absurd (hr bytes hb) hne
    case true =>
      refine .bind (triple_index (fun s hs => hs.1) fun s _ hv => ⟨by omega, ?_⟩) fun j => ?_
      · exact Int.lt_of_lt_of_le inner (hn hv)
      · refine .bind (triple_modify fun s hs => ?_) fun _ => hi fun i h => he i (.tail _ h)
        obtain ⟨⟨hs, ⟨hB, hl, hb⟩, hr⟩, hj, -⟩ := hs
        cases Int.ofNat.inj hj
        exact ⟨hs.markTree hr, hB, by simp [mark, hl], fun k => (hb k).mark⟩

theorem triple_sendTreeBlocksForDataBlock (hf : file < 0x8000) (hx : files[file]? = some f)
    (hb : b < f.blocks) :
    Keeps host files (Steady host files B) (sendTreeBlocksForDataBlock host file f b)
      fun done s => Steady host files B s ∧ (done → f.hasTree →
        ∃ leaf : Nat, leaf = f.leafIdx b ∧ s.sentTreeBlocks file leaf) := by
  unfold sendTreeBlocksForDataBlock
  split
  case isTrue ht =>
    rw [Bool.not_eq_true'] at ht
    exact .pure fun s hs => ⟨hs, fun _ h => by simp [ht] at h⟩
  case isFalse ht =>
    have bounds (hv : Valid host files) : 0 ≤ f.leafNodesOffset ∧
        f.leafNodesOffset ≤ f.leafIdx b ∧ f.leafIdx b < f.nodes := by
      obtain ⟨hs, hl⟩ := hv.trees f (List.mem_of_getElem? hx) (by simpa using ht)
      exact f.leafIdx_bounds hs hl (Int.natCast_nonneg b) hb
    refine (triple_index (fun s hs => hs.sound) fun s _ hv => ?_).bind fun leaf => ?_
    · exact ⟨Int.le_trans (bounds hv).1 (bounds hv).2.1, (bounds hv).2.2⟩
    let L (blocks : Nat → Nat → Bool) := B blocks ∧ leaf = f.leafIdx b
    have done (s) (hs : Steady host files L s) (hl : s.sentTreeBlocks file leaf) :
        Steady host files B s ∧ (true → f.hasTree →
          ∃ leaf : Nat, leaf = f.leafIdx b ∧ s.sentTreeBlocks file leaf) :=
      ⟨⟨hs.sound, hs.blocks.1, hs.complete⟩, fun _ _ => ⟨leaf, hs.blocks.2, hl⟩⟩
    refine triple_get fun t => ?_
    split
    case isTrue hl =>
      refine .pure fun s hs => ?_
      obtain ⟨rfl, hs, hi, -⟩ := hs
      exact done s ⟨hs.sound, ⟨hs.blocks, hi⟩, hs.complete⟩ hl
    case isFalse =>
      refine .bind (Triple.conseq (triple_sendTreeBlock hf (R := fun blocks trees =>
        L blocks ∧ (InnerReads host files → ∀ file, Complete files trees file))) (fun s hs => ?_) fun _ _ h => h)
        fun sent => ?_
      · exact ⟨hs.2.1.sound, ⟨hs.2.1.blocks, hs.2.2.1⟩, hs.2.1.complete⟩
      cases sent
      case false => exact .pure fun s hs => ⟨⟨hs.1, hs.2.1.1.1, hs.2.1.2⟩, nofun⟩
      case true =>
        let Sent (s : Server) : Prop := Sound host files s ∧ L s.sentBlocks ∧
          s.sentTreeBlocks file leaf ∧
          (InnerReads host files → Begun files file f (List.range f.leafNodesOffset.toNat) s.sentTreeBlocks ∧
            (s.sentTreeBlocks file 0 → Begun files file f [] s.sentTreeBlocks))
        refine .bind (R := fun _ => Sent) (triple_modify fun s hs => ?_) fun _ => ?_
        · obtain ⟨hs, ⟨hL, hc⟩, hr⟩ := hs
          refine ⟨hs.markTree hr, hL, by simp [mark], fun k => ?_⟩
          have others (file') (hn : file' ≠ file) := (hc k file').mark_ne (i := leaf) hn
          refine ⟨⟨fun i hi => .inl (List.mem_range.mpr (Int.lt_toNat.mpr hi)), others⟩,
            fun h0 => ⟨fun i hlt => ?_, others⟩⟩
          have hne : (0 : Nat) ≠ leaf := by
            have := hL.2
            have : (0 : Int) ≤ b / hashesPerBlock := Int.ediv_nonneg (by omega) (by omega)
            simp only [File.leafIdx] at *
            omega
          have started : s.sentTreeBlocks file 0 := by simpa [mark, hne] using h0
          exact .inr (by simp [mark, hc k file f hx ⟨0, started⟩ i hlt])
        split
        case isTrue h0 =>
          refine .pure fun s hs => done s ⟨hs.1, hs.2.1, fun k => ?_⟩ hs.2.2.1
          refine Begun.complete (f := f) ⟨fun i hi => ?_, (hs.2.2.2 k).1.others⟩ hx
          omega
        case isFalse h0 =>
          refine (triple_index (fun s hs => hs.1) fun s _ hv => ?_).bind fun first => ?_
          · exact ⟨Int.le_refl _, by have := bounds hv; omega⟩
          refine triple_get fun t => ?_
          split
          case isTrue hz =>
            refine .pure fun s hs => ?_
            obtain ⟨rfl, hs, hi, -⟩ := hs
            refine done s ⟨hs.1, hs.2.1, fun k => ?_⟩ hs.2.2.1
            cases Int.ofNat.inj hi
            exact ((hs.2.2.2 k).2 hz).complete hx
          case isFalse =>
            have inner := triple_sendInnerBlocks hf hx (B := L)
              (l := leaf) (fun hv => Int.le_trans (bounds hv).2.1 (bounds hv).2.2.le)
              fun i hi => Int.lt_toNat.mp (List.mem_range.mp hi)
            refine inner.conseq (fun s hs => ?_) fun _ s hs => ?_
            · obtain ⟨-, hs, -⟩ := hs
              exact ⟨hs.1, hs.2.1, hs.2.2.1, fun k => (hs.2.2.2 k).1⟩
            · have hd := done s hs.1 hs.2
              exact ⟨hd.1, fun _ => hd.2 rfl⟩

abbrev Idle (host : Host) (files : List File) : Server → Prop :=
  Steady host files fun _ => True

theorem Idle.faults (h : Idle host files s) : Faults host files none s :=
  ⟨h.sound, nofun, nofun⟩

theorem File.blocks_lt (f : File) : f.blocks < 0x80000000 := by
  rw [blocks, numBytesToNumBlocks, int32]
  exact Int.bmod_lt (by decide)

-- A block that was not sent, with the hash blocks that it needs.
structure Ready (host : Host) (files : List File) (file b : Nat) (s : Server) : Prop where
  fresh : ∀ q ∈ s.sent, q.isData → q.fileId = .ofNat file → q.blockIdx ≠ .ofNat b
  path  : InnerReads host files → ∀ f, files[file]? = some f → f.hasTree → ∀ i, f.onPath b i →
    ∃ h ∈ s.sent, h.isTree (.ofNat file) i

theorem toNat_ofNat32 (h : b < 0x80000000) : (UInt32.ofNat b).toNat = b :=
  Nat.mod_eq_of_lt (by omega)

theorem Steady.ready (h : Steady host files (fun blocks => ¬blocks file b) s) (hf : file < 0x8000)
    (hb : b < 0x80000000) (hx : files[file]? = some f)
    (hl : f.hasTree → ∃ leaf : Nat, leaf = f.leafIdx b ∧ s.sentTreeBlocks file leaf) :
    Ready host files file b s where
  fresh q hq hd hi he := by
    have flagged := h.sound.flagged q hq hd
    rw [hi, he, toNat_ofNat hf, toNat_ofNat32 hb] at flagged
    exact h.blocks flagged
  path k g hg ht i hi := by
    cases hx.symm.trans hg
    obtain ⟨leaf, hl, hm⟩ := hl ht
    obtain hi | hi := hi
    · cases Int.ofNat.inj (hi.trans hl.symm)
      exact h.sound.trees file i hm
    · exact h.sound.trees file i (h.complete k file f hx ⟨leaf, hm⟩ i hi)

theorem length_compressed (h : raw.length ≤ blockSize) :
    (compressed host raw).2.length ≤ blockSize := by
  dsimp only [compressed]
  split
  case isTrue hc => exact Nat.le_trans (Nat.le_of_lt hc.2) (by decide)
  case isFalse => exact h

theorem triple_sendDataBlock (hf : file < min 0x8000 files.length)
    (hv : Valid host files → 0 ≤ blockIdx) :
    Keeps host files (Idle host files) (sendDataBlock host files file blockIdx flush)
      fun _ => Idle host files := by
  obtain ⟨f, hx⟩ : ∃ f, files[file]? = some f := ⟨files[file], List.getElem?_eq_getElem _⟩
  have small : file < 0x8000 := by omega
  unfold sendDataBlock
  refine .bind (R := fun _ => Idle host files) ((triple_index (fun s hs => hs.sound)
    fun _ _ _ => ?_).conseq (fun _ h => h) fun _ _ h => h.1) fun _ => ?_
  · omega
  simp only [List.getD_eq_getElem?_getD, hx, Option.getD_some]
  split
  case isTrue => exact .pure fun s hs => hs
  case isFalse hb =>
    refine (triple_index (fun s hs => hs.sound) fun _ _ h => ⟨hv h, by omega⟩).bind fun b => ?_
    refine .given (fun s hs => hs.2.2) fun hb => triple_get fun t => ?_
    split
    case isTrue => exact .pure fun s hs => hs.2.1
    case isFalse hn =>
      refine .bind (Triple.conseq (triple_sendTreeBlocksForDataBlock small hx hb
        (B := fun blocks => ¬blocks file b)) (fun s hs => ?_) fun _ _ h => h) fun sent => ?_
      · obtain ⟨rfl, hs, -⟩ := hs
        exact ⟨hs.sound, hn, hs.complete⟩
      cases sent
      case false => exact .pure fun s hs => ⟨hs.1.sound, trivial, hs.1.complete⟩
      case true =>
        have index : b < 0x80000000 := by
          have := f.blocks_lt
          omega
        refine .bind (R := fun _ s => Idle host files s ∧ Ready host files file b s)
          (triple_ask fun s hs => ?_) fun raw => ?_
        · have ready := hs.1.ready small index hx (hs.2 rfl)
          have wire := hs.1.sound.wire
          exact ⟨⟨{ hs.1.sound with wire := ⟨wire.bytes, wire.room⟩ }, trivial, hs.1.complete⟩,
            ready.fresh, ready.path⟩
        generalize hr : raw.map (·.take blockSize) = taken
        cases taken
        case none => exact .pure fun s hs => hs.1
        case some raw =>
          have bound : (compressed host raw).2.length ≤ blockSize := by
            obtain ⟨bytes, -, rfl⟩ := Option.map_eq_some_iff.mp hr
            exact length_compressed (List.length_take_le ..)
          refine .bind (R := fun _ s => Idle host files s ∧ Ready host files file b s ∧
            s.sentBlocks file b) (triple_modify fun s hs => ?_) fun _ => ?_
          · obtain ⟨⟨sound, -, complete⟩, fresh, path⟩ := hs
            refine ⟨⟨{ sound with
              wire    := ⟨sound.wire.bytes, sound.wire.room⟩
              flagged := fun q hq hd => ?_ }, trivial, complete⟩, ⟨fresh, path⟩, by simp [mark]⟩
            simp [mark, sound.flagged q hq hd]
          refine .bind (triple_send bound (fun s hs => hs.1.sound) fun s hs => ?_)
            fun _ => .pure fun _ h => h
          obtain ⟨⟨sound, -, complete⟩, ready, marked⟩ := hs
          refine ⟨sound.send_block bound flush (ofNat_ne_last small) (fun _ => ⟨?_, ready.fresh⟩)
            fun k _ => ?_, trivial, ?_⟩
          · rwa [toNat_ofNat small, toNat_ofNat32 index]
          · rw [toNat_ofNat small, toNat_ofNat32 index]
            exact ready.path k
          · rw [Server.send_eq]
            exact complete

theorem triple_sendBlocks {block : Int → Option Int} (hf : file < min 0x8000 files.length)
    (hb : ∀ i, 0 ≤ i → i < last → ∃ b, block i = some b ∧ (Valid host files → 0 ≤ b))
    (hi : 0 ≤ i) :
    Keeps host files (Idle host files) (sendBlocks host files file block last i budget)
      fun r s => Idle host files s ∧ 0 ≤ r.1 := by
  refine (Triple.loop (fun r s => Idle host files s ∧ 0 ≤ r.1) (fun ⟨i, budget⟩ => ?_)
    (fun _ s hs => hs.1.faults) (i, budget)).conseq (fun s hs => ⟨hs, hi⟩) fun _ _ h => h
  refine .given (fun s hs => hs.2) fun hi => ?_
  dsimp only
  split
  case isTrue h =>
    simp only [Bool.and_eq_true, decide_eq_true_eq] at h
    obtain ⟨b, hb, hv⟩ := hb i hi h.2
    rw [hb]
    refine .bind ((triple_sendDataBlock hf hv).conseq (fun s hs => hs.1) fun _ _ h => h)
      fun _ => .pure fun s hs => ⟨hs, ?_⟩
    dsimp only at hi ⊢
    omega
  case isFalse => exact .pure fun s hs => hs

theorem triple_runPrefetching :
    Keeps host files (Idle host files) (runPrefetching host files) fun _ => Idle host files := by
  refine Triple.loop (fun _ => Idle host files) (fun budget => triple_get fun t => ?_)
    (fun _ s hs => hs.faults) 128
  split
  case h_1 => exact .pure fun s hs => hs.2
  case h_2 p rest hp =>
    split
    case isTrue => exact .pure fun s hs => hs.2
    case isFalse =>
      refine .given (fun s hs => hs.1 ▸ hs.2.sound.queue) fun queue => ?_
      rw [hp] at queue
      obtain ⟨hf, ho, hr⟩ := queue p (.head _)
      have hm : files.getD p.file { size := 0 } ∈ files := by
        rw [List.getD_eq_getElem?_getD, List.getElem?_eq_getElem (by omega), Option.getD_some]
        exact List.getElem_mem _
      refine .bind ((triple_sendBlocks hf (fun i h0 hl => ?_) hr).conseq (fun s hs => hs.2)
        fun _ _ h => h) fun (priorityIndex, budget) => .given (fun s hs => hs.2) fun hr => ?_
      · have hl : i.toNat < (files.getD p.file { size := 0 }).priorityBlocks.length := by omega
        exact ⟨_, List.getElem?_eq_getElem hl,
          fun hv => hv.priority _ hm _ (List.getElem_mem hl)⟩
      refine .bind ((triple_sendBlocks hf (fun i h0 _ => ⟨i, rfl, fun _ => h0⟩) ho).conseq
        (fun s hs => hs.1) fun _ _ h => h) fun (overallIndex, budget) => ?_
      refine .bind (triple_modify fun s hs => ?_) fun _ => .pure fun _ h => h
      obtain ⟨⟨sound, -, complete⟩, ho⟩ := hs
      refine ⟨{ sound with wire := ⟨sound.wire.bytes, sound.wire.room⟩, queue := fun q hq => ?_ },
        trivial, complete⟩
      split at hq
      · exact queue q (.tail _ hq)
      · obtain rfl | hq := List.mem_cons.mp hq
        · exact ⟨hf, ho, hr⟩
        · exact queue q (.tail _ hq)

theorem triple_handleRequest (hr : host.request n = some r) :
    Keeps host files (Idle host files) (handleRequest host files r) fun _ => Idle host files := by
  have bounds := r.fileId.toInt_lt
  unfold handleRequest
  dsimp only
  split
  case h_1 =>
    split
    case isTrue => exact .pure fun s hs => hs
    case isFalse h =>
      have wrapped : Int.bmod files.length 0x10000 ≤ files.length := by
        rw [Int.bmod]
        split <;> omega
      have hf : r.fileId.toInt.toNat < min 0x8000 files.length := by omega
      refine .bind (triple_sendDataBlock hf fun _ => by omega) fun _ => ?_
      split
      case isTrue =>
        refine triple_modify fun s hs => ⟨{ hs.sound with
          wire  := ⟨hs.sound.wire.bytes, hs.sound.wire.room⟩
          queue := fun q hq => ?_ }, trivial, hs.complete⟩
        obtain rfl | hq := List.mem_cons.mp hq
        · refine ⟨hf, ?_, Int.le_refl _⟩
          dsimp only [Prefetch.make]
          omega
        · exact hs.sound.queue q hq
      case isFalse => exact .pure fun s hs => hs
  case h_2 =>
    refine triple_get fun t => ?_
    split
    case isTrue => exact .pure fun s hs => hs.2
    case isFalse h =>
      refine .bind (R := fun _ => Idle host files) (triple_modify fun s hs => ?_) fun _ => ?_
      · obtain ⟨-, sound, -, complete⟩ := hs
        exact ⟨{ sound with wire := ⟨sound.wire.bytes, sound.wire.room⟩ }, trivial, complete⟩
      refine (triple_index (fun s hs => hs.sound) fun s _ hv => ?_).bind fun file => ?_
      · exact ⟨by omega, hv.prefetch n r hr (by assumption)⟩
      refine triple_modify fun s hs => ?_
      obtain ⟨⟨sound, -, complete⟩, hi, hl⟩ := hs
      refine ⟨{ sound with
        wire  := ⟨sound.wire.bytes, sound.wire.room⟩
        queue := fun q hq => ?_ }, trivial, complete⟩
      rcases List.mem_append.mp hq with hq | hq
      · exact sound.queue q hq
      · cases List.mem_singleton.mp hq
        refine ⟨?_, Int.le_refl _, Int.le_refl _⟩
        dsimp only [Prefetch.make]
        omega
  case h_3 => exact .pure fun s hs => hs

theorem triple_serveRequest :
    Keeps host files (Idle host files) (serveRequest host files) fun _ => Idle host files := by
  refine .bind (R := fun r s => Idle host files s ∧ ∃ n, host.request n = r)
    (triple_ask fun s hs => ?_) fun r => ?_
  · have wire := hs.sound.wire
    exact ⟨⟨{ hs.sound with wire := ⟨wire.bytes, wire.room⟩ }, trivial, hs.complete⟩, s.clock, rfl⟩
  cases r
  case none =>
    exact .bind (triple_runPrefetching.conseq (fun s hs => hs.1) fun _ _ h => h)
      fun _ => .pure fun s hs => hs
  case some r =>
    dsimp only
    split
    case isTrue => exact .pure fun s hs => hs.1
    case isFalse =>
      refine .given (fun s hs => hs.2) fun ⟨n, hr⟩ => ?_
      exact .bind ((triple_handleRequest hr).conseq (fun s hs => hs.1) fun _ _ h => h)
        fun _ => triple_runPrefetching.bind fun _ => .pure fun s hs => hs

theorem triple_flush (b : Bool) :
    Keeps host files (Idle host files) (if b then do
        Prog.modify Server.flush
        serveRequest host files
      else serveRequest host files) fun _ => Idle host files := by
  split
  case isTrue =>
    refine (triple_modify fun s hs => ?_).bind fun _ => triple_serveRequest
    have wire := hs.sound.wire.flush
    rw [Server.flush_eq] at wire ⊢
    exact ⟨{ hs.sound with wire }, trivial, hs.complete⟩
  case isFalse => exact triple_serveRequest

theorem triple_serveOnce :
    Keeps host files (Idle host files) (serveOnce host files) fun _ => Idle host files := by
  refine triple_get fun t => ?_
  dsimp only
  split
  case isTrue hd =>
    simp only [Bool.and_eq_true, Bool.not_eq_true'] at hd
    refine .bind (R := fun _ s => Idle host files { s with doneSent := true })
      (triple_send (by decide) (fun s hs => hs.2.sound) fun s hs => ?_) fun _ => ?_
    · obtain ⟨rfl, sound, -, complete⟩ := hs
      refine ⟨sound.send (by decide) true nofun (fun _ => nofun) (e := true) ?_, trivial, ?_⟩
      · rw [List.countP_append, sound.ended, hd.1.1]
        rfl
      · rw [Server.send_eq]
        exact complete
    · exact .bind (R := fun _ => Idle host files) (triple_modify fun s hs => hs)
        fun _ => triple_flush _
  case isFalse => exact (triple_flush _).conseq (fun s hs => hs.2) fun _ _ h => h

theorem triple_serve (files : List File) (ha : host.alive) :
    Keeps host files (· = {}) (serve host files) fun _ => Idle host files := by
  unfold serve
  rw [if_pos ha]
  refine .bind (R := fun _ => Idle host files) (triple_modify fun s hs => ?_) fun _ => ?_
  · cases hs
    refine ⟨⟨⟨⟨[], [], [], rfl, nofun, rfl, rfl, rfl⟩, by decide⟩, nofun, nofun, .nil, rfl, nofun,
      fun _ _ _ _ => by simp, nofun⟩, trivial, fun _ _ _ _ ⟨_, h⟩ => nomatch h⟩
  · refine .loop (fun _ => Idle host files) (fun _ => ?_) (fun _ s hs => hs.faults) ()
    refine triple_serveOnce.conseq (fun _ h => h) fun r s hs => ?_
    cases r <;> exact hs

end Sending

section Serving

variable {host : Host} {files : List File}

theorem serve_dead (h : ¬host.alive) (n : Nat) : serve host files n {} = (.ret false, {}) := by
  unfold serve
  rw [if_neg h]
  rfl

theorem serve_faults (files : List File) (h : host.alive) (n : Nat) :
    Sound host files (serve host files n {}).2 ∧ (serve host files n {}).1 ≠ .halt .overflow ∧
      ((serve host files n {}).1 = .halt .index → ¬Valid host files) := by
  have run := triple_serve files h n {} rfl
  generalize serve host files n {} = r at run
  obtain ⟨_ | _ | _, s⟩ := r
  case ret => exact ⟨run.sound, nofun, nofun⟩
  case halt => exact ⟨run.1, fun h => run.2.1 (congrArg some (Outcome.halt.inj h)),
    fun h => run.2.2 (congrArg some (Outcome.halt.inj h))⟩
  case cut => exact ⟨run.1, nofun, nofun⟩

theorem serve_index (h : Valid host files) (n : Nat) :
    (serve host files n {}).1 ≠ .halt .index := by
  by_cases ha : host.alive
  case pos => exact fun hi => (serve_faults files ha n).2.2 hi h
  case neg => exact serve_dead ha n ▸ nofun

-- A device that asks twice for a block of a file. A hash block is not read at the time that is given.
def asking (fileId : Int16) (kind : RequestType) (unread : Nat) : Host where
  request n      := if n = 0 ∨ n = 3 then some ⟨kind, fileId, 0⟩ else none
  readTree n _ i := if n + 1 = unread then none else some [.ofNat i]
  readData _ _ _ := some [7]

def largeFile : File := ⟨129 * blockSize, true, [3]⟩

theorem serve_index_prefetch : ∃ f, File.ofArchive (ascii "a.apk") signedApk 1 [] true = some f ∧
    Valid (asking 0 .prefetch 3) [f] ∧
      (serve (asking 0 .prefetch 3) [f] 4 {}).1 ≠ .halt .index := by
  have made : (File.ofArchive (ascii "a.apk") signedApk 1 [] true).any (·.size == 4144) := by
    decide +kernel
  have length : signedApk.length = 4144 := by decide +kernel
  obtain ⟨f, made, size⟩ := (Option.any_eq_true _ _).mp made
  have valid : Valid (asking 0 .prefetch 3) [f] := by
    refine ⟨fun n r hr _ => ?_, List.forall_mem_singleton.mpr ?_, List.forall_mem_singleton.mpr ?_⟩
    · obtain ⟨-, hr⟩ := (Option.ite_none_right_eq_some).mp hr
      cases hr
      exact (by decide : (0 : Int16).toInt < 1)
    · exact File.priorityBlocks_nonneg made (by rw [length]; decide) nofun
    · rw [beq_iff_eq.mp size]
      exact fun _ => by decide
  exact ⟨f, made, valid, serve_index valid 4⟩

-- A file that is not there is prefetched, and the tree of a file with one block has no block.
theorem serve_index_unchecked :
    (serve (asking 5 .prefetch 0) [⟨blockSize, false, []⟩] 2 {}).1 = .halt .index ∧
      (serve (asking 0 .blockMissing 0) [⟨blockSize, true, []⟩] 2 {}).1 = .halt .index := by
  decide +kernel

theorem serve_preceded (h : InnerReads host files) (n : Nat) :
    Preceded files (serve host files n {}).2.sent := by
  by_cases ha : host.alive
  case pos => exact (serve_faults files ha n).1.preceded h
  case neg =>
    rw [serve_dead ha n]
    exact fun _ _ _ h => by simp at h

theorem serve_preceded_missing :
    InnerReads (asking 0 .blockMissing 0) [largeFile] ∧
      Preceded [largeFile] (serve (asking 0 .blockMissing 0) [largeFile] 1 {}).2.sent ∧
      ((serve (asking 0 .blockMissing 0) [largeFile] 1 {}).2.sent.map
        fun r => (r.blockType, r.blockIdx)) = [(1, 1), (1, 0), (0, 0), (0, 3)] := by
  have reads : InnerReads (asking 0 .blockMissing 0) [largeFile] :=
    fun n file f i _ _ => ⟨[.ofNat i], rfl, nofun⟩
  exact ⟨reads, serve_preceded reads 1, by decide +kernel⟩

-- The leaf is sent, the block above it is not read, and nothing is missed when the block is asked
-- for again.
theorem serve_preceded_unread :
    ¬Preceded [largeFile] (serve (asking 0 .blockMissing 3) [largeFile] 2 {}).2.sent := by
  have sent : (serve (asking 0 .blockMissing 3) [largeFile] 2 {}).2.sent =
      [⟨0, 1, 0, 1, [1]⟩] ++ ⟨0, 0, 0, 0, [7]⟩ ::
        (serve (asking 0 .blockMissing 3) [largeFile] 2 {}).2.sent.drop 2 := by decide +kernel
  intro h
  obtain ⟨r, hr, -, -, hi⟩ := h _ _ _ sent (by decide) largeFile rfl rfl 0 (.inr (by decide +kernel))
  cases List.mem_singleton.mp hr
  exact absurd hi (by decide)

theorem serve_output (host : Host) (files : List File) (n : Nat) :
    (serve host files n {}).1 ≠ .halt .overflow ∧
      4 + (serve host files n {}).2.pending.length ≤ pendingBlocksSize ∧
      ∃ chunks records, (serve host files n {}).2.written =
          (if host.alive then ascii "OKAY" else []) ++ chunks.flatMap chunk ∧
        parseChunks chunks.length (chunks.flatMap chunk) = some chunks ∧
        parseRecords records.length chunks.flatten = some records ∧
        ((records.filter Record.isData).map fun r => (r.fileId, r.blockIdx)).Nodup ∧
        records.countP (·.fileId = 0xffff) ≤ 1 := by
  by_cases ha : host.alive
  case pos =>
    obtain ⟨sound, full, -⟩ := serve_faults files ha n
    obtain ⟨chunks, records, rest, hw, hc, hs, hr, -⟩ := sound.wire.bytes
    refine ⟨full, Nat.le_trans sound.wire.room (by decide), chunks, records, ?_, ?_, ?_, ?_, ?_⟩
    · rw [hw, if_pos ha]
    · exact parseChunks_chunk (fun c h => Nat.lt_trans (hc c h) (by decide)) (Nat.le_refl _)
    · rw [hr]
      refine parseRecords_encode (fun r h => ?_) (Nat.le_refl _)
      exact Nat.lt_of_le_of_lt (sound.small r (hs ▸ List.mem_append_left _ h)) (by decide)
    · have once := sound.once
      rw [hs, List.filter_append, List.map_append] at once
      exact once.of_append_left
    · have ended := sound.ended
      rw [hs, List.countP_append] at ended
      split at ended <;> omega
  case neg =>
    rw [serve_dead ha n, if_neg ha]
    exact ⟨nofun, by decide, [], [], rfl, rfl, rfl, .nil, Nat.zero_le _⟩

-- What is written first is no chunk, but the answer to the handshake.
theorem serve_output_handshake :
    let data : Record := { fileId := 0, bytes := [7] }
    (serve (asking 0 .blockMissing 0) [⟨1, false, []⟩] 3 {}).2.written =
        ascii "OKAY" ++ (chunk data.encode ++ chunk doneRecord.encode) ∧
      parseChunks 33 (serve (asking 0 .blockMissing 0) [⟨1, false, []⟩] 3 {}).2.written = none ∧
      parseChunks 33 (chunk data.encode ++ chunk doneRecord.encode) =
        some [data.encode, doneRecord.encode] := by
  decide +kernel

end Serving

end Incremental

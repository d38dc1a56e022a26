import LibAdb.Execution.PriorityBlocks
import Mathlib.Data.List.Nodup
import Mathlib.Data.List.Range

namespace Incremental

section Unduplicate

variable {α : Type} [DecidableEq α] {u v w : List α} {x : α}

theorem mem_unduplicateFrom : x ∈ unduplicateFrom u v ↔ x ∈ v ∧ x ∉ u := by
  induction v generalizing u
  case nil => simp [unduplicateFrom]
  case cons t v hi =>
    rw [unduplicateFrom]
    split
    case isTrue seen =>
      have seen := List.contains_iff_mem.mp seen
      rw [hi, List.mem_cons]
      exact ⟨fun h => ⟨.inr h.left, h.right⟩,
        fun h => ⟨h.left.resolve_left fun same => h.right (same ▸ seen), h.right⟩⟩
    case isFalse new =>
      have new := mt List.contains_iff_mem.mpr new
      rw [List.mem_cons, hi, List.mem_cons, List.mem_cons]
      by_cases same : x = t
      case pos => simp [same, new]
      case neg => simp [same]

theorem nodup_unduplicateFrom : (unduplicateFrom u v).Nodup := by
  induction v generalizing u
  case nil => exact List.nodup_nil
  case cons t v hi =>
    rw [unduplicateFrom]
    split
    case isTrue  => exact hi
    case isFalse => exact List.nodup_cons.mpr ⟨by simp [mem_unduplicateFrom], hi⟩

theorem unduplicateFrom_append (hv : v.Nodup) (hu : ∀ t ∈ v, t ∉ u) :
    ∃ rest, unduplicateFrom u (v ++ w) = v ++ rest := by
  induction v generalizing u
  case nil => exact ⟨_, rfl⟩
  case cons t v hi =>
    rw [List.nodup_cons] at hv
    rw [List.forall_mem_cons] at hu
    have later : ∀ s ∈ v, s ∉ t :: u := by
      intro s hs seen
      cases List.mem_cons.mp seen
      case inl he => exact hv.left (he ▸ hs)
      case inr he => exact hu.right s hs he
    obtain ⟨rest, hr⟩ := hi hv.right later
    refine ⟨rest, ?_⟩
    rw [List.cons_append, unduplicateFrom, if_neg (by simp [hu.left]), hr, List.cons_append]

end Unduplicate

def blocksFrom (first count : Nat) : List Int32 :=
  (List.range' first count).map Int32.ofNat

theorem iota_ofNat (first count : Nat) : iota (.ofNat first) count = blocksFrom first count := by
  induction count generalizing first
  case zero => rfl
  case succ n hi =>
    have next : Int32.ofNat first + 1 = Int32.ofNat (first + 1) := (Int32.ofNat_add ..).symm
    rw [iota, next, hi]
    rfl

theorem appendBlocks_ofNat {blocks : List Int32} (hn : count < 0x80000000) :
    appendBlocks (.ofNat first) (.ofNat count) blocks = some (blocks ++ blocksFrom first count) := by
  have value : (Int32.ofNat count).toInt = count := Int32.toInt_ofNat_of_lt hn
  rw [appendBlocks]
  split
  case isTrue one =>
    have one : count = 1 := by
      have := congrArg Int32.toInt one
      rw [value] at this
      exact Int.ofNat.inj this
    rw [one]
    rfl
  case isFalse =>
    have positive : ¬Int32.ofNat count < 0 := by
      rw [Int32.lt_iff_toInt_lt, value]
      exact Int.not_lt.mpr (Int.natCast_nonneg count)
    rw [if_neg positive, value, Int.toNat_natCast, iota_ofNat]

theorem offsetToBlockIndex_natCast (n : Nat) : offsetToBlockIndex n = .ofNat (n / blockSize) := by
  rw [offsetToBlockIndex, ← Int.natCast_ediv, Int32.ofInt_eq_ofNat]

theorem count_ofNat (h : first ≤ last) :
    Int32.ofNat last - .ofNat first + 1 = .ofNat (last - first + 1) := by
  rw [Int32.ofNat_add, Int32.ofNat_sub _ _ h]
  rfl

-- The last blocks, which are searched for the end record.
def searchWindow (first last : Nat) : List Int32 :=
  blocksFrom (max first (last - 16)) (min 17 (last - first + 1))

theorem zipPriorityBlocks_eq {offset size first last : Nat} (hf : offset / blockSize = first)
    (hl : size / blockSize = last) (h : first ≤ last) (small : last - first + 1 < 0x80000000) :
    zipPriorityBlocks offset size =
      some (searchWindow first last ++ blocksFrom first (last - first + 1 - 17) ++ [0]) := by
  have more : Int32.ofNat (last - first + 1) > numBlocksInEocdSearch ↔ 17 < last - first + 1 := by
    rw [gt_iff_lt, Int32.lt_iff_toInt_lt, Int32.toInt_ofNat_of_lt small]
    exact Int.ofNat_lt
  have finish (blocks : List Int32) : appendBlocks 0 1 blocks = some (blocks ++ [0]) := rfl
  simp only [zipPriorityBlocks, offsetToBlockIndex_natCast, hf, hl, count_ofNat h, more, finish]
  by_cases many : 17 < last - first + 1
  case pos =>
    have start : Int32.ofNat last - numBlocksInEocdSearch + 1 = .ofNat (last - 16) := by
      have count : Int32.ofNat last - .ofNat 17 + 1 = .ofNat (last - 17 + 1) :=
        count_ofNat (by omega)
      rwa [show last - 17 + 1 = last - 16 by omega] at count
    have others : Int32.ofNat (last - first + 1) - numBlocksInEocdSearch =
        .ofNat (last - first + 1 - 17) :=
      (Int32.ofNat_sub (last - first + 1) 17 (by omega)).symm
    have window : searchWindow first last = blocksFrom (last - 16) 17 := by
      rw [searchWindow, Nat.max_eq_right (by omega), Nat.min_eq_left (by omega)]
    have searched : appendBlocks (.ofNat (last - 16)) numBlocksInEocdSearch [] =
        some (blocksFrom (last - 16) 17) := appendBlocks_ofNat (by decide)
    rw [if_pos many, start, others, window]
    simp only [searched, Option.bind_eq_bind, Option.bind_some,
      appendBlocks_ofNat (Nat.lt_of_le_of_lt (Nat.sub_le ..) small)]
  case neg =>
    have window : searchWindow first last = blocksFrom first (last - first + 1) := by
      rw [searchWindow, Nat.max_eq_left (by omega), Nat.min_eq_right (by omega)]
    have none : blocksFrom first (last - first + 1 - 17) = [] := by
      rw [Nat.sub_eq_zero_of_le (by omega)]
      rfl
    rw [if_neg many, appendBlocks_ofNat small, window, none, List.append_nil]
    rfl

theorem mem_zipPriorityBlocks {n : Nat} (hf : first ≤ n) (hl : n ≤ last) :
    Int32.ofNat n ∈ searchWindow first last ++ blocksFrom first (last - first + 1 - 17) := by
  rw [searchWindow, blocksFrom, blocksFrom, ← List.map_append]
  apply List.mem_map_of_mem
  simp only [List.mem_append, List.mem_range'_1]
  omega

theorem nodup_blocksFrom (h : first + count ≤ 0x80000000) : (blocksFrom first count).Nodup := by
  apply List.Nodup.map_on
  case H =>
    intro m hm n hn same
    simp only [List.mem_range'_1] at hm hn
    have := congrArg Int32.toInt same
    rw [Int32.toInt_ofNat_of_lt (by omega), Int32.toInt_ofNat_of_lt (by omega)] at this
    exact Int.ofNat.inj this
  case d => exact List.nodup_range'

theorem toInt_nonneg_of_mem (h : first + count ≤ 0x80000000) (hb : b ∈ blocksFrom first count) :
    0 ≤ b.toInt := by
  obtain ⟨n, hn, rfl⟩ := List.mem_map.mp hb
  rw [List.mem_range'_1] at hn
  rw [Int32.toInt_ofNat_of_lt (by omega)]
  exact Int.natCast_nonneg n

-- An entry lies in the file, and the end record is behind it.
structure ZipEntry.InRange (fileSize : Nat) (e : ZipEntry) : Prop where
  offset : 0 ≤ e.offset
  length : e.offset + e.length < fileSize

theorem appendEntry_eq {e : ZipEntry} (h : e.InRange fileSize)
    (size : (fileSize + 4095) / 4096 < 0x80000000) : ∃ first count, first + count ≤ 0x80000000 ∧
      ∀ blocks, appendEntry blocks e = some (blocks ++ blocksFrom first count) := by
  obtain ⟨offset, ho⟩ := Int.eq_ofNat_of_zero_le h.offset
  have inside : offset + e.length < fileSize := by
    have := h.length
    omega
  have ends : e.endOffset = ↑(offset + e.length) := by
    rw [ZipEntry.endOffset, ho, Int.bmod]
    omega
  simp only [appendEntry, ho, ends, offsetToBlockIndex_natCast]
  by_cases dex : e.name = ascii "classes.dex"
  case pos =>
    simp only [if_pos dex]
    refine ⟨offset / blockSize, 2, ?_, fun _ => appendBlocks_ofNat (show 2 < 0x80000000 by decide)⟩
    simp only [blockSize]
    omega
  case neg =>
    simp only [if_neg dex, count_ofNat (Nat.div_le_div_right (Nat.le_add_right offset e.length))]
    refine ⟨_, _, ?_, fun _ => appendBlocks_ofNat ?_⟩
    all_goals
      simp only [blockSize]
      omega

theorem installationPriorityBlocks_eq (h : ∀ e ∈ archive, e.InRange fileSize)
    (size : (fileSize + 4095) / 4096 < 0x80000000) :
    ∃ blocks, installationPriorityBlocks archive = some blocks ∧ ∀ b ∈ blocks, 0 ≤ b.toInt := by
  have run (entries : List ZipEntry) (he : ∀ e ∈ entries, e.InRange fileSize)
      (blocks : List Int32) (hb : ∀ b ∈ blocks, 0 ≤ b.toInt) :
      ∃ more, entries.foldlM appendEntry blocks = some more ∧ ∀ b ∈ more, 0 ≤ b.toInt := by
    induction entries generalizing blocks
    case nil => exact ⟨blocks, rfl, hb⟩
    case cons e entries hi =>
      rw [List.forall_mem_cons] at he
      obtain ⟨first, count, bound, hm⟩ := appendEntry_eq he.left size
      rw [List.foldlM_cons, hm]
      exact hi he.right _ (List.forall_mem_append.mpr ⟨hb, fun b => toInt_nonneg_of_mem bound⟩)
  exact run _ (fun e he => h e (List.mem_filter.mp he).left) [] nofun

section Signer

variable {content : Bytes} {fileSize fuel n : Nat} {offset : Int}

theorem length_pread (hn : 0 < n) (h : content.length < offset + n) :
    (pread content n offset).length < n := by
  rw [pread]
  split
  case isTrue  => exact hn
  case isFalse =>
    rw [List.length_take, List.length_drop]
    omega

theorem valueAt32_short (h : content.length < offset + 4) : valueAt32 content offset = -1 := by
  have short : (pread content 4 offset).length < 4 := length_pread (by decide) h
  rw [valueAt32]
  generalize pread content 4 offset = bytes at short
  obtain _ | ⟨a, _ | ⟨b, _ | ⟨c, _ | ⟨d, rest⟩⟩⟩⟩ := bytes
  case cons.cons.cons.cons =>
    simp only [List.length_cons] at short
    omega
  all_goals rfl

theorem valueAt64_short (h : content.length < offset + 8) : valueAt64 content offset = -1 := by
  have short : (pread content 8 offset).length < 8 := length_pread (by decide) h
  exact if_neg (Nat.ne_of_lt short)

theorem searchEocd_ge {c : Int16} (h : searchEocd content fileSize fuel c = some offset)
    (ho : 0 ≤ offset) : (fileSize : Int) ≤ offset + 0x8015 := by
  induction fuel generalizing c
  case zero => cases h
  case succ fuel hi =>
    rw [searchEocd] at h
    split at h
    case isFalse =>
      cases h
      cases ho
    case isTrue =>
      split at h
      case isFalse => exact hi h
      case isTrue =>
        cases h
        have : c.toInt < 0x8000 := c.toInt_lt
        rw [eocdOffset, zipEocdRecMinSize]
        omega

theorem centralDirOffset_ge (h : centralDirOffset content fileSize fuel = some offset)
    (ho : 0 ≤ offset) : (fileSize : Int) ≤ offset + 0x80008015 := by
  rw [centralDirOffset] at h
  obtain ⟨eocd, search, h⟩ := Option.bind_eq_some_iff.mp h
  split at h
  case isTrue =>
    cases h
    cases ho
  case isFalse nonneg =>
    cases h
    have := searchEocd_ge search (Int.not_lt.mp nonneg)
    have : (valueAt32 content (eocd + zipEocdCentralDirSizeFieldOffset)).toInt < 0x80000000 :=
      Int32.toInt_lt _
    omega

-- A signing block starts inside of the file, and not far from its end.
theorem signerBlockOffset_bounds
    (h : signerBlockOffset content fileSize fuel = some offset) (ho : 0 ≤ offset) :
    offset + 4 ≤ content.length ∧ fileSize ≤ offset + 0x200000000 := by
  rw [signerBlockOffset] at h
  obtain ⟨cd, search, h⟩ := Option.bind_eq_some_iff.mp h
  split at h
  case isTrue =>
    cases h
    cases ho
  case isFalse nonneg =>
    have far := centralDirOffset_ge search (Int.not_lt.mp nonneg)
    split at h
    case isTrue =>
      cases h
      cases ho
    case isFalse magic =>
      simp only [Bool.or_eq_true, bne_iff_ne, not_or, not_not] at magic
      have inside : cd ≤ content.length := by
        by_contra outside
        have short : valueAt64 content (cd - 8) = -1 := valueAt64_short (by omega)
        cases short.symm.trans magic.right
      dsimp only at h
      split at h
      case isTrue =>
        cases h
        cases ho
      case isFalse =>
        split at h
        case isTrue =>
          cases h
          cases ho
        case isFalse same =>
          generalize hs : valueAt32 content (cd - apkSigBlockFooterSize) = size at h same
          cases h
          have size₁ : size.toInt < 0x80000000 := size.toInt_lt
          refine ⟨?_, by omega⟩
          by_contra outside
          have minus : size.toInt = -1 := by
            rw [not_not.mp same, valueAt32_short (Int.not_le.mp outside)]
            rfl
          omega

end Signer

section Archive

variable {filepath content : Bytes} {fileSize first last : Nat}

theorem priorityBlocksForFile_eq (apk : filepath.endsWithIgnoreCase ".apk")
    (whole : content.length ≤ fileSize) (size : (fileSize + 4095) / 4096 < 0x80000000)
    (found : signerBlockOffset content fileSize fuel = some offset) (ho : 0 ≤ offset)
    (entries : ∀ e ∈ archive, e.InRange fileSize)
    (hf : first = offset / 4096) (hl : last = fileSize / 4096) :
    first ≤ last ∧ last < 0x80000000 ∧ ∃ blocks, (∀ b ∈ blocks, 0 ≤ b.toInt) ∧
      priorityBlocksForFile filepath content fileSize fuel archive =
        some (unduplicateFrom [] (searchWindow first last ++
          (blocksFrom first (last - first + 1 - 17) ++ [0] ++ blocks))) := by
  obtain ⟨start, rfl⟩ := Int.eq_ofNat_of_zero_le ho
  obtain ⟨inside, near⟩ := signerBlockOffset_bounds found ho
  have ordered : first ≤ last := by omega
  have few : last - first + 1 < 0x80000000 := by omega
  have starts : start / blockSize = first := by
    rw [blockSize]
    omega
  have zip := zipPriorityBlocks_eq starts hl.symm ordered few
  obtain ⟨blocks, installation, nonneg⟩ := installationPriorityBlocks_eq entries size
  refine ⟨ordered, by omega, blocks, nonneg, ?_⟩
  rw [priorityBlocksForFile, apk, found]
  simp only [Bool.not_true, Bool.false_eq_true, if_false, Option.bind_eq_bind, Option.bind_some,
    if_neg (Int.not_lt.mpr ho), zip, installation]
  rw [unduplicate, List.append_assoc, List.append_assoc, ← List.append_assoc _ [0]]

theorem priorityBlocksForFile_lists (apk : filepath.endsWithIgnoreCase ".apk")
    (whole : content.length ≤ fileSize) (size : (fileSize + 4095) / 4096 < 0x80000000)
    (found : signerBlockOffset content fileSize fuel = some offset) (ho : 0 ≤ offset)
    (entries : ∀ e ∈ archive, e.InRange fileSize)
    (hf : first = offset / 4096) (hl : last = fileSize / 4096) :
    first ≤ last ∧
    ∃ rest, priorityBlocksForFile filepath content fileSize fuel archive =
        some (searchWindow first last ++ rest) ∧
      (searchWindow first last ++ rest).Nodup ∧ 0 ∈ searchWindow first last ++ rest ∧
      ∀ n, first ≤ n → n ≤ last → Int32.ofNat n ∈ searchWindow first last ++ rest := by
  obtain ⟨ordered, few, blocks, -, result⟩ :=
    priorityBlocksForFile_eq apk whole size found ho entries hf hl
  have nodup : (searchWindow first last).Nodup := nodup_blocksFrom (by omega)
  obtain ⟨rest, kept⟩ := unduplicateFrom_append (u := [])
    (w := blocksFrom first (last - first + 1 - 17) ++ [0] ++ blocks) nodup (by simp)
  rw [kept] at result
  have mem (x : Int32) (hx : x ∈ searchWindow first last ++
      (blocksFrom first (last - first + 1 - 17) ++ [0] ++ blocks)) :
      x ∈ searchWindow first last ++ rest := kept ▸ mem_unduplicateFrom.mpr ⟨hx, List.not_mem_nil⟩
  refine ⟨ordered, rest, result, kept ▸ nodup_unduplicateFrom, mem 0 (by simp), fun n h₁ h₂ => ?_⟩
  apply mem
  have covered := mem_zipPriorityBlocks h₁ h₂
  simp only [List.mem_append] at covered ⊢
  exact covered.imp_right fun h => .inl (.inl h)

theorem File.priorityBlocks_nonneg {f : File} {tree : Bool}
    (made : File.ofArchive filepath content fuel archive tree = some f)
    (size : (content.length + 4095) / 4096 < 0x80000000)
    (entries : ∀ e ∈ archive, e.InRange content.length) : ∀ b ∈ f.priorityBlocks, 0 ≤ b := by
  obtain ⟨blocks, listed, rfl⟩ := Option.map_eq_some_iff.mp made
  refine List.forall_mem_map.mpr fun b hb => ?_
  by_cases apk : filepath.endsWithIgnoreCase ".apk"
  case neg =>
    rw [priorityBlocksForFile, if_pos (by simpa using apk)] at listed
    cases listed
    cases hb
  case pos =>
    cases found : signerBlockOffset content content.length fuel
    case none => simp [priorityBlocksForFile, apk, found] at listed
    case some offset =>
      by_cases ho : 0 ≤ offset
      case neg =>
        simp only [priorityBlocksForFile, apk, found, Bool.not_true, Bool.false_eq_true, if_false,
          Option.bind_eq_bind, Option.bind_some, if_pos (Int.not_le.mp ho)] at listed
        cases listed
        cases hb
      case pos =>
        obtain ⟨first, hf⟩ := Int.eq_ofNat_of_zero_le (Int.ediv_nonneg ho (show 0 ≤ 4096 by decide))
        obtain ⟨ordered, few, blocks, nonneg, result⟩ :=
          priorityBlocksForFile_eq apk (Nat.le_refl _) size found ho entries hf.symm rfl
        cases listed.symm.trans result
        simp only [mem_unduplicateFrom, List.mem_append, List.mem_singleton] at hb
        rcases hb.left with hb | (hb | rfl) | hb
        · exact toInt_nonneg_of_mem (by omega) hb
        · exact toInt_nonneg_of_mem (by omega) hb
        · decide
        · exact nonneg b hb

end Archive

-- The data of an entry, a signing block that begins in the first block and the end record.
def signedApk : Bytes :=
  let size : Bytes := [24, 0, 0, 0, 0, 0, 0, 0]
  List.replicate 4090 7 ++ size ++ size ++ ascii "APK Sig Block 42" ++
    ([0x50, 0x4b, 5, 6] ++ List.replicate 18 0)

theorem priorityBlocksForFile_signedApk :
    signerBlockOffset signedApk 4144 1 = some 4090 ∧ searchWindow 0 1 = [0, 1] ∧
    ∃ rest, priorityBlocksForFile (ascii "a.apk") signedApk 4144 1
        [⟨ascii "lib/a.so", 100, true, 3990, 3990, false⟩] = some (searchWindow 0 1 ++ rest) ∧
      (searchWindow 0 1 ++ rest).Nodup := by
  have apk : (ascii "a.apk").endsWithIgnoreCase ".apk" := by decide
  have found : signerBlockOffset signedApk 4144 1 = some 4090 := by decide +kernel
  have length : signedApk.length ≤ 4144 := by decide +kernel
  have entry : ZipEntry.InRange 4144 ⟨ascii "lib/a.so", 100, true, 3990, 3990, false⟩ :=
    ⟨by decide, by decide⟩
  have ⟨_, rest, result, nodup, _⟩ := priorityBlocksForFile_lists apk length (by decide) found
    (by decide) (List.forall_mem_singleton.mpr entry) rfl rfl
  exact ⟨found, rfl, rest, result, nodup⟩

end Incremental

import LibAdb.Machine.Bundle
import LibAdb.Machine.Decimal
import Mathlib.Data.List.Count
import Mathlib.Data.List.Nodup

namespace AdbInstaller

-- The names that `readdir` gives have no slash.
def ListsNames (h : Host) : Prop :=
  ∀ files path dir, ∀ name ∈ (unpacked h files path dir).readdir dir, 47 ∉ name

-- A host whose `unzip` leaves these names, but fails for a bundle that begins with `b`.
def sampleHost (names : List String) : Host where
  system command files := ({ files with readdir := fun _ => names.map ascii },
    (command.drop 13).head? ≠ some 98)
  mkdirs _ files := files
  now n := n

def sampleDisk : Disk where
  files := { stat := fun _ => none, readable := fun _ => true, readdir := fun _ => [] }

section Ownership

variable {h : Host} {d : Disk} {inputs : List Bytes}

theorem beforeLast_of_mem (hl : ListsNames h) (hx : x ∈ (expandBundle h d path).2) :
    x.beforeLast 47 = tempDir h d.ticks := by
  obtain ⟨name, hn, -, rfl⟩ := mem_expandBundle hx
  exact Bytes.beforeLast_append (hl _ _ _ _ hn)

theorem mem_expandAll (hl : ListsNames h) (ha : (expandAll h d inputs).2 = some apks) :
    (∀ x ∈ apks, x ∈ inputs ∧ isBundle x = false ∨
      x.beforeLast 47 ∈ made (expandAll h d inputs).1.calls) ∧
    (∀ x ∈ inputs, isBundle x = false → x ∈ apks) ∧ (apks = [] → inputs = []) := by
  induction inputs generalizing d apks
  case nil =>
    cases ha
    exact ⟨nofun, nofun, fun _ => rfl⟩
  case cons path inputs hi =>
    cases hb : isBundle path
    case false =>
      rw [expandAll_plain hb] at ha ⊢
      obtain ⟨rest, hr, rfl⟩ := Option.map_eq_some_iff.mp ha
      obtain ⟨own, plain, -⟩ := hi hr
      refine ⟨?_, ?_, nofun⟩
      · rintro x (_ | ⟨_, hx⟩)
        · exact .inl ⟨.head _, hb⟩
        · exact (own x hx).imp_left fun h => ⟨.tail _ h.left, h.right⟩
      · rintro x (_ | ⟨_, hx⟩) hx'
        · exact .head _
        · exact .tail _ (plain x hx hx')
    case true =>
      cases hu : unpacks h d.files path (tempDir h d.ticks)
      case false =>
        rw [expandAll_failed hb hu] at ha
        cases ha
      case true =>
        have dir : tempDir h d.ticks ∈ made (expandAll h (expandBundle h d path).1 inputs).1.calls := by
          rw [(expanded h _ inputs).made, expandBundle_fst hu]
          simp [made, HostCall.made]
        rw [expandAll_bundle hb hu] at ha ⊢
        obtain ⟨rest, hr, rfl⟩ := Option.map_eq_some_iff.mp ha
        obtain ⟨own, plain, -⟩ := hi hr
        refine ⟨?_, ?_, ?_⟩
        · intro x hx
          rcases List.mem_append.mp hx with hx | hx
          · exact .inr (beforeLast_of_mem hl hx ▸ dir)
          · exact (own x hx).imp_left fun h => ⟨.tail _ h.left, h.right⟩
        · rintro x (_ | ⟨_, hx⟩) hx'
          · cases hb.symm.trans hx'
          · exact List.mem_append_right _ (plain x hx hx')
        · intro hn
          have := expandBundle_eq_nil_iff.mp (List.append_eq_nil_iff.mp hn).left
          cases hu.symm.trans this

theorem calls_cleanupExpanded (d : Disk) (paths : List Bytes) :
    (cleanupExpanded h d paths).calls =
      d.calls ++ (tempDirs paths).map fun dir => .system (removeCommand dir) := by
  rw [cleanupExpanded]
  induction tempDirs paths generalizing d
  case nil => simp
  case cons dir dirs hi =>
    rw [List.foldl_cons, hi, removeDir, Disk.system]
    simp

theorem beforeLast_mem_tempDirs {path : Bytes} (hp : path ∈ apks) (hx : apksTempPrefix <+: path) :
    path.beforeLast 47 ∈ tempDirs apks := by
  rw [tempDirs, List.mem_eraseDups]
  exact List.mem_map_of_mem (List.mem_filter.mpr ⟨hp, List.isPrefixOf_iff_prefix.mpr hx⟩)

theorem cleanup_iff (hl : ListsNames h) (ha : (expandAll h d inputs).2 = some apks) :
    (∀ dir ∈ tempDirs apks, dir ∈ made (expandAll h d inputs).1.calls) ↔
    ∀ path ∈ inputs, isBundle path = false → apksTempPrefix <+: path →
      path.beforeLast 47 ∈ made (expandAll h d inputs).1.calls := by
  have ⟨own, plain, _⟩ := mem_expandAll hl ha
  constructor
  case mp =>
    intro h path hp hb hx
    exact h _ (beforeLast_mem_tempDirs (plain path hp hb) hx)
  case mpr =>
    intro h dir hd
    rw [tempDirs, List.mem_eraseDups] at hd
    obtain ⟨path, hp, rfl⟩ := List.mem_map.mp hd
    have ⟨hp, hx⟩ := List.mem_filter.mp hp
    rcases own path hp with ⟨hm, hb⟩ | hc
    · exact h path hm hb (List.isPrefixOf_iff_prefix.mp hx)
    · exact hc

theorem mem_made (k : Expanded h { files, ticks := tick } inputs failed) :
    dir ∈ made (expandAll h { files, ticks := tick } inputs).1.calls ↔
      ∃ i < failed.elim (inputs.countP isBundle) (· + 1), dir = tempDir h (tick + i) := by
  rw [k.made, made, List.filterMap_nil, List.nil_append, List.mem_map]
  constructor
  case mp =>
    rintro ⟨m, hm, rfl⟩
    obtain ⟨lo, hi⟩ := List.mem_range'_1.mp hm
    exact ⟨m - tick, Nat.sub_lt_left_of_lt_add lo hi, by rw [Nat.add_sub_cancel' lo]⟩
  case mpr =>
    rintro ⟨i, hi, rfl⟩
    exact ⟨_, List.mem_range'_1.mpr ⟨Nat.le_add_right .., Nat.add_lt_add_left hi _⟩, rfl⟩

-- Every call of `cleanupExpanded` removes a directory that `expandApks` has made, which removes them
-- itself if it returns nothing.
structure Owned (h : Host) (files : Files) (tick : Nat) (inputs : List Bytes) : Prop where
  cleanup : ∀ call ∈ (cleanupExpanded h { (expandApks h { files, ticks := tick } inputs).1 with
      calls := [] } (expandApks h { files, ticks := tick } inputs).2).calls,
    ∃ dir ∈ made (expandApks h { files, ticks := tick } inputs).1.calls,
      call = .system (removeCommand dir)
  empty   : (expandApks h { files, ticks := tick } inputs).2 = [] →
    ∀ dir ∈ made (expandApks h { files, ticks := tick } inputs).1.calls,
      removes (expandApks h { files, ticks := tick } inputs).1.calls dir

-- A user's file below the extraction directories takes the directory it lies in along, and a bundle
-- that fails leaves the directories of those before it behind.
theorem owned_iff (hl : ListsNames h) (files : Files) (tick : Nat) (inputs : List Bytes) :
    Owned h files tick inputs ↔
    match failing h files tick (inputs.filter isBundle) with
    | none => ∀ path ∈ inputs, isBundle path = false → apksTempPrefix <+: path →
        ∃ i < inputs.countP isBundle, path.beforeLast 47 = tempDir h (tick + i)
    | some k => ∀ i < k, tempDir h (tick + i) = tempDir h (tick + k) := by
  have k := expanded h { files, ticks := tick } inputs
  have owned : Owned h files tick inputs ↔ _ ∧ _ := ⟨fun o => ⟨o.1, o.2⟩, fun o => ⟨o.1, o.2⟩⟩
  rw [owned, calls_cleanupExpanded, expandApks]
  simp only [List.nil_append, List.forall_mem_map, HostCall.system.injEq, removeCommand,
    List.append_cancel_left_eq, List.append_cancel_right_eq, exists_eq_right', mem_made k]
  split
  case h_1 hf =>
    rw [hf] at k
    obtain ⟨apks, ha⟩ := Option.ne_none_iff_exists'.mp fun hn => by simpa using k.none_iff.mp hn
    have cleanup := cleanup_iff hl ha
    simp only [mem_made k] at cleanup
    rw [hf, ha, Option.getD_some, cleanup]
    refine and_iff_left fun hn => ?_
    simp [(mem_expandAll hl ha).2.2 hn]
  case h_2 n hf =>
    rw [hf] at k ⊢
    rw [k.none_iff.mpr rfl, Option.getD_none]
    simp only [k.removes]
    constructor
    case mp =>
      intro o i hi
      rcases o.2 trivial _ ⟨i, Nat.lt_succ_of_lt hi, rfl⟩ with hd | ⟨_, ⟨⟩, hd⟩
      case inl => cases hd
      case inr => exact hd
    case mpr =>
      refine fun hs => ⟨List.forall_mem_nil _, fun _ => ?_⟩
      rintro _ ⟨i, hi, rfl⟩
      refine .inr ⟨n, rfl, ?_⟩
      rcases Nat.lt_succ_iff_lt_or_eq.mp hi with hi | rfl
      case inl => exact hs i hi
      case inr => rfl

theorem owned_two : Owned (sampleHost ["base.apk"]) sampleDisk.files 0
    [ascii "a.apks", ascii "/tmp/libadb_apks_0/b.apk", ascii "b.apk"] := by
  have lists : ListsNames (sampleHost ["base.apk"]) := fun _ _ _ => by
    change ∀ name ∈ [ascii "base.apk"], 47 ∉ name
    decide
  refine (owned_iff lists _ _ _).mpr ?_
  show ∀ path ∈ [ascii "a.apks", ascii "/tmp/libadb_apks_0/b.apk", ascii "b.apk"], _
  decide +kernel

-- The directory of a user's file, even `/tmp` itself, and a directory that stays.
theorem directories_not_owned :
    (cleanupExpanded (sampleHost []) sampleDisk (expandApks (sampleHost []) sampleDisk
      [ascii "/tmp/libadb_apks_mine/a.apk", ascii "/tmp/libadb_apks_b.apk"]).2).calls =
        [.system (ascii "rm -rf '/tmp/libadb_apks_mine'"), .system (ascii "rm -rf '/tmp'")] ∧
    (expandApks (sampleHost []) sampleDisk
      [ascii "/tmp/libadb_apks_mine/a.apk", ascii "/tmp/libadb_apks_b.apk"]).1.calls = [] ∧
    (expandApks (sampleHost ["base.apk"]) sampleDisk [ascii "a.apks", ascii "bad.apks"]).2 = [] ∧
    (expandApks (sampleHost ["base.apk"]) sampleDisk [ascii "a.apks", ascii "bad.apks"]).1.calls =
      [.mkdirs (ascii "/tmp/libadb_apks_0"),
        .system (ascii "unzip -q -o 'a.apks' -d '/tmp/libadb_apks_0' >/dev/null 2>&1"),
        .mkdirs (ascii "/tmp/libadb_apks_1"),
        .system (ascii "unzip -q -o 'bad.apks' -d '/tmp/libadb_apks_1' >/dev/null 2>&1"),
        .system (ascii "rm -rf '/tmp/libadb_apks_1'")] := by
  decide +kernel

end Ownership

section Content

variable {h : Host} {d : Disk} {path : Bytes} {entries : List (List Bytes)} {name : Bytes}

def listing (h : Host) (d : Disk) (path : Bytes) : List Bytes :=
  (unpacked h d.files path (tempDir h d.ticks)).readdir (tempDir h d.ticks)

-- A bundle whose files have these components was unpacked, and its directory is listed in some order.
structure Extracts (h : Host) (d : Disk) (path : Bytes) (entries : List (List Bytes)) : Prop where
  bundle : isBundle path
  unzips : (h.run (unzip path (tempDir h d.ticks)) (h.mkdirs (tempDir h d.ticks) d.files)).2
  nodup  : (listing h d path).Nodup
  lists  : ∀ name, name ∈ listing h d path ↔
    name = ascii "." ∨ name = ascii ".." ∨ ∃ e ∈ entries, e.head? = some name
  plain  : ∀ e ∈ entries, ∀ c ∈ e, 47 ∉ c

def fileName (e : List Bytes) : Bytes :=
  e.getLastD []

def filePath (dir : Bytes) (e : List Bytes) : Bytes :=
  dir ++ ascii "/" ++ Bytes.join 47 e

def Lossless (h : Host) (d : Disk) (path : Bytes) (entries : List (List Bytes)) : Prop :=
  ∀ e ∈ entries, Installer.isApk (fileName e) →
    (expandApks h d [path]).2.count (filePath (tempDir h d.ticks) e) = 1 ∧
    (isBase (fileName e) → (expandApks h d [path]).2.head? = some (filePath (tempDir h d.ticks) e))

def bases (h : Host) (d : Disk) (path : Bytes) : List Bytes :=
  ((listing h d path).filter Installer.isApk).filter isBase

def splits (h : Host) (d : Disk) (path : Bytes) : List Bytes :=
  ((listing h d path).filter Installer.isApk).filter (!isBase ·)

theorem filePath_singleton (dir name : Bytes) : filePath dir [name] = dir ++ ascii "/" ++ name := by
  simp [filePath, Bytes.join]

theorem filePath_injective (dir : Bytes) : Function.Injective fun name => filePath dir [name] := by
  intro a b hab
  simpa [filePath_singleton] using hab

theorem expandApks_eq (hx : Extracts h d path entries) : (expandApks h d [path]).2 =
    ((bases h d path).getLast?.toList.map fun name => filePath (tempDir h d.ticks) [name]) ++
      ((splits h d path).map fun name => filePath (tempDir h d.ticks) [name]).mergeSort (· ≤ ·) := by
  have single : (expandApks h d [path]).2 = (expandBundle h d path).2 := by
    simp only [expandApks, expandAll, if_pos hx.bundle]
    split
    case h_1 he => simp [he]
    case h_2 he => simp [he]
  have names : (if (h.run (unzip path (tempDir h d.ticks))
      (h.mkdirs (tempDir h d.ticks) d.files)).2 then
        (listing h d path).filter Installer.isApk else []) =
      (listing h d path).filter Installer.isApk := if_pos hx.unzips
  simp only [filePath_singleton]
  rw [single, bases, splits, ← names]
  rfl

theorem count_expandApks (hx : Extracts h d path entries) (name : Bytes) :
    (expandApks h d [path]).2.count (filePath (tempDir h d.ticks) [name]) =
      (bases h d path).getLast?.toList.count name + (splits h d path).count name := by
  rw [expandApks_eq hx, List.count_append, (List.mergeSort_perm ..).count_eq,
    List.count_map_of_injective _ _ (filePath_injective _),
    List.count_map_of_injective _ _ (filePath_injective _)]

theorem count_splits (hx : Extracts h d path entries) (ha : Installer.isApk name)
    (hm : name ∈ listing h d path) :
    (splits h d path).count name = if isBase name then 0 else 1 := by
  split
  case isTrue hb => simp [splits, List.count_eq_zero, hb]
  case isFalse hb =>
    have nodup : (splits h d path).Nodup := (hx.nodup.filter _).filter _
    exact List.count_eq_one_of_mem nodup (by simp [splits, hm, ha, hb])

theorem count_bases (hb : isBase name = false) :
    (bases h d path).getLast?.toList.count name = 0 := by
  rw [List.count_eq_zero, Option.mem_toList]
  intro hm
  have := List.mem_of_getLast? hm
  simp [bases, hb] at this

theorem count_getLast (l : List Bytes) : l.getLast?.toList.count name = 1 ↔ l.getLast? = some name := by
  cases l.getLast? <;> simp [List.count_singleton]

theorem filePath_not_mem (hx : Extracts h d path entries) (e : List Bytes) :
    filePath (tempDir h d.ticks) (a :: b :: e) ∉ (expandApks h d [path]).2 := by
  have slash : 47 ∈ Bytes.join 47 (a :: b :: e) := by simp [Bytes.join, List.intercalate]
  have plain : ∀ name ∈ listing h d path, 47 ∉ name := by
    intro name hn
    rcases (hx.lists name).mp hn with rfl | rfl | ⟨e, he, hh⟩
    · decide
    · decide
    · exact hx.plain e he name (List.mem_of_head? hh)
  have other : ∀ name ∈ listing h d path,
      filePath (tempDir h d.ticks) [name] ≠ filePath (tempDir h d.ticks) (a :: b :: e) := by
    intro name hn he
    rw [filePath_singleton, filePath, List.append_cancel_left_eq] at he
    exact plain name hn (he ▸ slash)
  rw [expandApks_eq hx, List.mem_append, List.mem_mergeSort]
  rintro (hm | hm) <;> obtain ⟨name, hn, he⟩ := List.mem_map.mp hm
  · have := List.mem_of_getLast? (Option.mem_toList.mp hn)
    exact other name (List.mem_of_mem_filter (List.mem_of_mem_filter this)) he
  · exact other name (List.mem_of_mem_filter (List.mem_of_mem_filter hn)) he

-- Only the files at the top are seen, and of several base files the last one that is listed.
theorem lossless_iff (hx : Extracts h d path entries) : Lossless h d path entries ↔
    ∀ e ∈ entries, Installer.isApk (fileName e) → e = [fileName e] ∧
      (isBase (fileName e) → (bases h d path).getLast? = some (fileName e)) := by
  refine forall₃_congr fun e he ha => ?_
  cases e
  case nil => cases ha
  case cons name e =>
    cases e
    case cons b e =>
      have := List.count_eq_zero.mpr (filePath_not_mem hx (a := name) (b := b) e)
      simp [this]
    case nil =>
      have hm : name ∈ listing h d path := (hx.lists name).mpr (.inr (.inr ⟨_, he, rfl⟩))
      have hs := count_splits hx ha hm
      simp only [fileName, List.getLastD_cons, List.getLastD_nil] at ha hs ⊢
      rw [count_expandApks hx, hs]
      by_cases hb : isBase name
      case pos =>
        simp only [hb, if_true, Nat.add_zero, count_getLast, true_and, forall_const]
        refine and_iff_left_of_imp fun hl => ?_
        rw [expandApks_eq hx, hl]
        rfl
      case neg => simp [hb, count_bases (Bool.eq_false_iff.mpr hb)]

theorem sampleHost_extracts {names : List String} (hn : (names.map ascii).Nodup)
    (hp : (names.map ascii).Perm (ascii "." :: ascii ".." :: entries.filterMap List.head?))
    (hs : ∀ e ∈ entries, ∀ c ∈ e, 47 ∉ c) :
    Extracts (sampleHost names) sampleDisk (ascii "app.apks") entries where
  bundle := rfl
  unzips := rfl
  nodup  := hn
  lists name := by
    refine hp.mem_iff.trans ?_
    simp
  plain  := hs

theorem bundle_lossless : Lossless (sampleHost [".", "split.apk", "..", "base.apk"]) sampleDisk
    (ascii "app.apks") [[ascii "base.apk"], [ascii "split.apk"]] :=
  (lossless_iff (sampleHost_extracts (by decide) (by decide) (by decide))).mpr (by decide +kernel)

-- A bundle with its files in `splits`, and one with two base files.
theorem bundle_not_lossless :
    (∃ h, Extracts h sampleDisk (ascii "app.apks")
        [[ascii "splits", ascii "base-master.apk"], [ascii "toc.pb"]] ∧
      (expandApks h sampleDisk [ascii "app.apks"]).2 = []) ∧
    ∃ h, Extracts h sampleDisk (ascii "app.apks") [[ascii "base.apk"], [ascii "base-master.apk"]] ∧
      (expandApks h sampleDisk [ascii "app.apks"]).2 =
        [ascii "/tmp/libadb_apks_0/base-master.apk"] := by
  refine ⟨⟨sampleHost [".", "..", "splits", "toc.pb"], ?_, by decide +kernel⟩,
    ⟨sampleHost [".", "..", "base.apk", "base-master.apk"], ?_, by decide +kernel⟩⟩
  all_goals exact sampleHost_extracts (by decide) (by decide) (by decide)

end Content

end AdbInstaller

import LibAdb.Machine.Install
import Mathlib.Data.List.Infix

namespace AdbInstaller

def unpacked (h : Host) (files : Files) (path dir : Bytes) : Files :=
  (h.run (unzip path dir) (h.mkdirs dir files)).1

variable {h : Host}

theorem mem_expandBundle (hf : file ∈ (expandBundle h d path).2) : ∃ name,
    name ∈ (unpacked h d.files path (tempDir h d.ticks)).readdir (tempDir h d.ticks) ∧
      Installer.isApk name ∧ file = tempDir h d.ticks ++ ascii "/" ++ name := by
  have names (name : Bytes) (hn : name ∈ if (h.run (unzip path (tempDir h d.ticks))
      (h.mkdirs (tempDir h d.ticks) d.files)).2 then
        ((unpacked h d.files path (tempDir h d.ticks)).readdir (tempDir h d.ticks)).filter
          Installer.isApk else []) :
      name ∈ (unpacked h d.files path (tempDir h d.ticks)).readdir (tempDir h d.ticks) ∧
        Installer.isApk name := by
    split at hn
    · exact List.mem_filter.mp hn
    · cases hn
  simp only [expandBundle, List.mem_append, List.mem_map, Option.mem_toList,
    List.mem_mergeSort] at hf
  obtain ⟨name, hn, rfl⟩ | ⟨name, hn, rfl⟩ := hf
  case inl =>
    have listed := names name (List.mem_of_mem_filter (List.mem_of_getLast? hn))
    exact ⟨name, listed.left, listed.right, rfl⟩
  case inr =>
    have listed := names name (List.mem_of_mem_filter hn)
    exact ⟨name, listed.left, listed.right, rfl⟩

def unpacks (h : Host) (files : Files) (path dir : Bytes) : Bool :=
  (h.run (unzip path dir) (h.mkdirs dir files)).2 &&
    ((unpacked h files path dir).readdir dir).any Installer.isApk

def failing (h : Host) (files : Files) (tick : Nat) : List Bytes → Option Nat
  | [] => none
  | path :: rest =>
    if unpacks h files path (tempDir h tick) then
      (failing h (unpacked h files path (tempDir h tick)) (tick + 1) rest).map (· + 1)
    else some 0

def HostCall.made : HostCall → Option Bytes
  | .mkdirs dir => some dir
  | .system _   => none

def made (calls : List HostCall) : List Bytes :=
  calls.filterMap HostCall.made

def removes (calls : List HostCall) (dir : Bytes) : Prop :=
  .system (removeCommand dir) ∈ calls

theorem expandBundle_eq_nil_iff :
    (expandBundle h d path).2 = [] ↔ unpacks h d.files path (tempDir h d.ticks) = false := by
  have parts (names : List Bytes) (f : Bytes → Bytes) :
      ((names.filter isBase).getLast?).toList.map f ++
        ((names.filter (!isBase ·)).map f).mergeSort (· ≤ ·) = [] ↔ names = [] := by
    rw [List.append_eq_nil_iff, ← List.length_eq_zero_iff (l := List.mergeSort _ _),
      List.length_mergeSort, List.length_eq_zero_iff]
    cases names
    case nil => simp
    case cons name names => cases hb : isBase name <;> simp [hb]
  refine (parts _ _).trans ?_
  rw [unpacks, unpacked, ← Bool.not_eq_true, Bool.and_eq_true, List.any_eq_true, not_and,
    ite_eq_right_iff, List.filter_eq_nil_iff, not_exists]
  simp only [not_and]
  rfl

theorem expandBundle_fst (hu : unpacks h d.files path (tempDir h d.ticks)) :
    (expandBundle h d path).1 = {
      files := unpacked h d.files path (tempDir h d.ticks)
      ticks := d.ticks + 1
      calls := d.calls ++ [.mkdirs (tempDir h d.ticks), .system (unzip path (tempDir h d.ticks))] } := by
  have ne : (expandBundle h d path).2 ≠ [] := by simp [expandBundle_eq_nil_iff, hu]
  refine (if_neg ne).trans ?_
  simp only [Disk.mkdirs, List.append_assoc]
  rfl

theorem calls_expandBundle (hu : unpacks h d.files path (tempDir h d.ticks) = false) :
    (expandBundle h d path).1.calls = d.calls ++ [.mkdirs (tempDir h d.ticks),
      .system (unzip path (tempDir h d.ticks)), .system (removeCommand (tempDir h d.ticks))] := by
  refine (congrArg Disk.calls (if_pos (expandBundle_eq_nil_iff.mpr hu))).trans ?_
  simp [removeDir, Disk.system, Disk.mkdirs]

-- One bundle after the other, up to the first one that fails.

theorem expandAll_plain (hb : isBundle path = false) (inputs : List Bytes) :
    expandAll h d (path :: inputs) =
      ((expandAll h d inputs).1, (expandAll h d inputs).2.map (path :: ·)) := by
  rw [expandAll, hb]
  rfl

theorem expandAll_bundle (hb : isBundle path) (hu : unpacks h d.files path (tempDir h d.ticks))
    (inputs : List Bytes) : expandAll h d (path :: inputs) =
      ((expandAll h (expandBundle h d path).1 inputs).1,
        (expandAll h (expandBundle h d path).1 inputs).2.map ((expandBundle h d path).2 ++ ·)) := by
  have ne : (expandBundle h d path).2 ≠ [] := by simp [expandBundle_eq_nil_iff, hu]
  rw [expandAll, if_pos hb]
  split
  case h_1 he => exact absurd (congrArg Prod.snd he) ne
  case h_2 he => rw [he]

theorem expandAll_failed (hb : isBundle path)
    (hu : unpacks h d.files path (tempDir h d.ticks) = false) (inputs : List Bytes) :
    expandAll h d (path :: inputs) = ((expandBundle h d path).1, none) := by
  have nil := expandBundle_eq_nil_iff.mpr hu
  rw [expandAll, if_pos hb]
  split
  case h_1 he => rw [he]
  case h_2 he => exact absurd nil (by simpa [he])

theorem removes_append : removes (l ++ l') dir ↔ removes l dir ∨ removes l' dir :=
  List.mem_append

theorem removes_bundle (path dir dir' : Bytes) :
    ¬removes [.mkdirs dir, .system (unzip path dir)] dir' := by
  have other : removeCommand dir' ≠ unzip path dir := fun he =>
    absurd (congrArg List.head? he) (by simp [unzip, removeCommand, ascii])
  simp [removes, other]

theorem removes_failed (path dir dir' : Bytes) : removes [.mkdirs dir, .system (unzip path dir),
    .system (removeCommand dir)] dir' ↔ dir' = dir := by
  rw [show ∀ a b c : HostCall, [a, b, c] = [a, b] ++ [c] from fun _ _ _ => rfl, removes_append,
    or_iff_right (removes_bundle _ _ _)]
  simp [removes, removeCommand]

structure Expanded (h : Host) (d : Disk) (inputs : List Bytes) (failed : Option Nat) : Prop where
  none_iff : (expandAll h d inputs).2 = none ↔ failed.isSome
  made     : made (expandAll h d inputs).1.calls = AdbInstaller.made d.calls ++
    (List.range' d.ticks (failed.elim (inputs.countP isBundle) (· + 1))).map (tempDir h)
  removes  : ∀ dir, removes (expandAll h d inputs).1.calls dir ↔
    AdbInstaller.removes d.calls dir ∨ ∃ k, failed = some k ∧ dir = tempDir h (d.ticks + k)

theorem expanded (h : Host) (d : Disk) (inputs : List Bytes) :
    Expanded h d inputs (failing h d.files d.ticks (inputs.filter isBundle)) := by
  induction inputs generalizing d
  case nil => constructor <;> simp [expandAll, failing]
  case cons path inputs hi =>
    cases hb : isBundle path
    case false =>
      have ⟨none_iff, made, removes⟩ := hi d
      rw [List.filter_cons_of_neg (by simp [hb])]
      refine ⟨?_, ?_, ?_⟩
      all_goals simp only [expandAll_plain hb]
      · rw [Option.map_eq_none_iff, none_iff]
      · rw [made, List.countP_cons_of_neg (by simp [hb])]
      · exact removes
    case true =>
      rw [List.filter_cons_of_pos hb, failing]
      cases hu : unpacks h d.files path (tempDir h d.ticks)
      case false =>
        rw [if_neg nofun]
        constructor
        all_goals simp only [expandAll_failed hb hu, calls_expandBundle hu]
        case none_iff => simp
        case made => simp [AdbInstaller.made, HostCall.made]
        case removes =>
          intro dir
          rw [removes_append, removes_failed]
          simp
      case true =>
        have ⟨none_iff, made, removes⟩ := hi (expandBundle h d path).1
        simp only [expandBundle_fst hu] at none_iff made removes
        rw [if_pos rfl]
        constructor
        all_goals simp only [expandAll_bundle hb hu, expandBundle_fst hu]
        case none_iff => simp [none_iff]
        case made =>
          rw [made, List.countP_cons_of_pos hb]
          cases failing h (unpacked h d.files path (tempDir h d.ticks)) (d.ticks + 1)
              (inputs.filter isBundle) <;>
            simp [AdbInstaller.made, HostCall.made, List.range'_succ]
        case removes =>
          intro dir
          rw [removes, removes_append, or_iff_left (removes_bundle _ _ _)]
          refine or_congr_right ?_
          cases failing h (unpacked h d.files path (tempDir h d.ticks)) (d.ticks + 1)
              (inputs.filter isBundle) <;> simp [Nat.add_assoc, Nat.add_comm 1]

end AdbInstaller

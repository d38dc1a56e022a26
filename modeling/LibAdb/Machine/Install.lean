import LibAdb.Execution.Install

namespace Installer

section Run

variable {x : Run α} {f : α → Run β} {s s' : Installer}

theorem bind_ok (h : x s = .ok (a, t)) : (x >>= f) s = f a t := by
  simp [bind, StateT.bind, Except.bind, h]

theorem bind_error (h : x s = .error e) : (x >>= f) s = .error e := by
  simp [bind, StateT.bind, Except.bind, h]

theorem bind_eq_ok (h : (x >>= f) s = .ok (b, s')) :
    ∃ a t, x s = .ok (a, t) ∧ f a t = .ok (b, s') := by
  cases hx : x s
  case error e => cases (bind_error hx).symm.trans h
  case ok r    => exact ⟨r.1, r.2, rfl, (bind_ok hx).symm.trans h⟩

end Run

def commandService (useAbbExec : Bool) (args : List Bytes) : Bytes :=
  if useAbbExec then ascii "abb_exec:" ++ Bytes.join 0 args else Bytes.join 32 args

end Installer

namespace AdbInstaller

open Installer

def attempted (h : Host) (d : Disk) (paths : List Bytes) : Disk :=
  if (expandApks h d paths).2 = [] then (expandApks h d paths).1
  else cleanupExpanded h (expandApks h d paths).1 (expandApks h d paths).2

theorem install_eq (hne : (expandApks h d paths).2 ≠ []) :
    install h e d paths flags multiPackage =
      ((if multiPackage then installMultiPackage (expandApks h d paths).1.files
          (argv flags (expandApks h d paths).2 multiPackage)
        else installMultipleApp h e.server (expandApks h d paths).1.files
          (argv flags (expandApks h d paths).2 multiPackage))
        { features := e.features, replies := e.replies }).map
          fun (ok, s) => (attempted h d paths, ok, s) := by
  simp only [install, attempted, hne, if_false]

theorem ok_of_map {x : Except Exit (Bool × Installer)} {d d' : Disk}
    (h : x.map (fun (ok, s) => (d, ok, s)) = .ok (d', ok, s)) : x = .ok (ok, s) := by
  cases x
  case error => exact absurd h nofun
  case ok r  => exact congrArg Except.ok (congrArg Prod.snd (Except.ok.inj h))

end AdbInstaller

namespace Device

def sampleFiles : Files where
  stat path     := if [ascii "app.bin", ascii "app.apk", ascii "app.apks"].contains path then
    some ⟨1, true⟩ else none
  readable _    := true
  readdir _     := []

def sampleHost : Host where
  system command files :=
    if (ascii "rm").isPrefixOf command then (sampleFiles, true)
    else ({ files with
      stat path := if path = ascii "/tmp/libadb_apks_0/base.apk" then some ⟨1, true⟩
        else files.stat path
      readdir _ := [ascii "base.apk"] }, true)
  mkdirs _ files := files
  now n := n

end Device

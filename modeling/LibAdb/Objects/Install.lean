import LibAdb.Objects.Transport
import Mathlib.Data.Stream.Init

namespace Bytes

def toLower (c : UInt8) : UInt8 :=
  if 65 ≤ c ∧ c ≤ 90 then c + 32 else c

def endsWithIgnoreCase (s : Bytes) (suffix : String) : Bool :=
  ((ascii suffix).map toLower).isSuffixOf (s.map toLower)

def startsWithIgnoreCase (s : Bytes) (literal : String) : Bool :=
  ((ascii literal).map toLower).isPrefixOf (s.map toLower)

-- What `find` finds, as the part of the string that starts at the first occurrence.
def find (s literal : Bytes) : Option Bytes :=
  s.tails.find? literal.isPrefixOf

def afterLast (s : Bytes) (c : UInt8) : Bytes :=
  (s.reverse.takeWhile (· != c)).reverse

def beforeLast (s : Bytes) (c : UInt8) : Bytes :=
  (s.reverse.dropWhile (· != c)).tail.reverse

def decimal (n : Int) : Bytes :=
  let digits := (Nat.toDigits 10 n.natAbs).map (·.toNat.toUInt8)
  if n < 0 then 45 :: digits else digits

def join (separator : UInt8) (args : List Bytes) : Bytes :=
  List.intercalate [separator] args

-- `Basename`, which reads a path without a name as `.` and one of slashes only as `/`.
def basename (path : Bytes) : Bytes :=
  let stripped := (path.reverse.dropWhile (· == 47)).reverse
  if path = [] then ascii "." else if stripped = [] then ascii "/" else afterLast stripped 47

-- The loop of `escape_arg` copies what stands between the quotes.
def escapeArg (s : Bytes) : Bytes :=
  ascii "'" ++ List.intercalate (ascii "'\\''") (s.splitOn 39) ++ ascii "'"

end Bytes

inductive InstallMode where
  | default
  | push
  | stream
  | incremental
  deriving DecidableEq, Repr

inductive CmdlineOption where
  | none
  | enable
  | disable
  deriving DecidableEq, Repr

inductive InstallKind where
  | auto
  | single
  | splitSet
  | bundle
  | multiPackage
  deriving DecidableEq, Repr

inductive ConflictPolicy where
  | fail
  | reinstall
  | reinstallKeepData
  deriving DecidableEq, Repr

inductive PackageNameSource where
  | explicit
  | auto
  | both
  deriving DecidableEq, Repr

structure InstallOptions where
  reinstall           : Bool := true
  allowDowngrade      : Bool := false
  grantPermissions    : Bool := false
  extraArgs           : List Bytes := []
  kind                : InstallKind := .auto
  onConflict          : ConflictPolicy := .fail
  packageNameSource   : PackageNameSource := .explicit
  packageName         : Bytes := []
  allowDowngradeRetry : Bool := false
  userId              : Int := -1
  deriving DecidableEq, Repr

inductive Status where
  | ok
  | invalidArgument
  | notImplemented
  | internal
  | deviceLost
  | connectionClosed
  | commandTimeout
  | stallTimeout
  | canceled
  | ioError
  | localFileError
  | remoteError
  | signatureMismatch
  | versionDowngrade
  | insufficientStorage
  | invalidApk
  | missingSplit
  deriving DecidableEq, Repr

inductive Phase where
  | none
  | prepare
  | createSession
  | transfer
  | commit
  | finalize
  deriving DecidableEq, Repr

structure Result where
  status     : Status := .ok
  exitCode   : Int := 0
  error      : Bytes := []
  remoteCode : Bytes := []
  output     : Bytes := []
  phase      : Phase := .none
  retries    : Nat := 0
  deriving DecidableEq, Repr

-- The end of the process: `error_exit` and `perror_exit` do not return.
inductive Exit where
  | error (message : Bytes)
  | perror (message : Bytes)
  deriving DecidableEq, Repr

structure Stat where
  size    : Nat
  regular : Bool := true
  deriving DecidableEq, Repr

-- The file system of the host, as the installer asks it.
structure Files where
  stat     : Bytes → Option Stat
  readable : Bytes → Bool
  readdir  : Bytes → List Bytes

namespace Files

def lookup (files : Files) (path : Bytes) : Option Stat :=
  files.stat (path.cString [])

end Files

-- A call with which the host is asked to change its files.
inductive HostCall where
  | mkdirs (dir : Bytes)
  | system (command : Bytes)
  deriving DecidableEq, Repr

-- The files with the number of times that `expandApks` has read the system clock, and the calls that
-- were made.
structure Disk where
  files : Files
  ticks : Nat := 0
  calls : List HostCall := []

-- What the library calls on the host: the shell (the answer tells whether the command exited with
-- zero), `mkdirs`, the system clock at its successive readings, the environment variable
-- `ADB_INSTALL_DEFAULT_INCREMENTAL` and the signature file of an APK, whose signature is empty
-- when the file is not a valid one.
structure Host where
  system             : Bytes → Files → Files × Bool
  mkdirs             : Bytes → Files → Files
  now                : Nat → Nat
  incrementalDefault : Option Bytes := none
  signature          : Files → Bytes → Option Bytes := fun _ _ => none

def Host.run (h : Host) (command : Bytes) (files : Files) : Files × Bool :=
  h.system (command.cString []) files

namespace Disk

def mkdirs (h : Host) (d : Disk) (dir : Bytes) : Disk :=
  { d with files := h.mkdirs dir d.files, calls := d.calls ++ [.mkdirs dir] }

def system (h : Host) (d : Disk) (command : Bytes) : Disk × Bool :=
  let (files, ok) := h.run command d.files
  ({ d with files, calls := d.calls ++ [.system command] }, ok)

end Disk

-- The device's side of one service: whether the stream could be opened, whether `copy_to_file` went
-- through, and what the device sends until it closes the stream.
structure Reply where
  opened : Bool := true
  copied : Bool := true
  text   : Bytes := []
  deriving DecidableEq, Repr

-- The buffer of `read_status_line` as the string it holds.
def Reply.statusLine (r : Reply) : Bytes :=
  Bytes.cString (r.text.take 8191) []

-- Why `monitor_install` stopped waiting for an attempt.
inductive GiveUp where
  | canceled (closing : Bool) (phase : Phase)
  | createTimeout
  | transferTimeout
  | transferStalled
  | commitTimeout
  | deviceLost
  deriving DecidableEq, Repr

namespace GiveUp

def status : GiveUp → Status
  | .canceled closing _ => if closing then .connectionClosed else .canceled
  | .createTimeout | .transferTimeout | .commitTimeout => .commandTimeout
  | .transferStalled => .stallTimeout
  | .deviceLost => .deviceLost

def phase : GiveUp → Phase
  | .canceled _ phase => phase
  | .createTimeout => .createSession
  | .transferTimeout | .transferStalled => .transfer
  | .commitTimeout | .deviceLost => .commit

def message : GiveUp → Bytes
  | .canceled _ .commit =>
    ascii "install canceled while committing: the device keeps installing"
  | .canceled _ _ => ascii "install canceled"
  | .createTimeout => ascii "pm install-create did not respond in time"
  | .transferTimeout => ascii "install transfer exceeded the total timeout"
  | .transferStalled => ascii "install transfer stalled"
  | .commitTimeout => ascii "pm install-commit did not finish in time"
  | .deviceLost => ascii "device stopped responding while committing"

end GiveUp

-- What one attempt meets: the features that its successive readings find on the transport, the
-- replies of the device, the output of the `inc-server` process (if it could be launched) and the
-- verdict of the monitor.
structure Attempt where
  features : Stream' (List Bytes)
  replies  : Stream' Reply
  server   : Option (List Bytes) := none
  giveUp   : Option GiveUp := none

-- The state of the installer within an attempt.
structure Installer where
  features : Stream' (List Bytes)
  replies  : Stream' Reply
  sent     : List Bytes := []
  output   : Bytes := []

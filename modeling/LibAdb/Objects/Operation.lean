import LibAdb.Objects.Install

structure CancelFlag where
  canceled         : Bool := false
  connectionClosed : Bool := false
  deriving DecidableEq, Repr

namespace CancelFlag

def triggered (f : CancelFlag) : Bool :=
  f.canceled || f.connectionClosed

def status (f : CancelFlag) : Status :=
  if f.connectionClosed then .connectionClosed else .canceled

end CancelFlag

-- `bytesLeft` is what is missing of the packet whose header was read, and `first` the byte that
-- `data()` points to: a packet without data leaves there what it finds.
structure ShellProtocol where
  id        : UInt8 := 255
  bytesLeft : Nat := 0
  data      : Bytes := []
  first     : UInt8
  capacity  : Nat := 1048571
  deriving DecidableEq, Repr

-- A session with its reader thread. `incoming` is what the socket pair holds, `ended` whether the
-- looper's end of it is closed, and `promise` the exit code once the reader has set it. All bytes
-- that ever arrived are in `received`, and `exited` is whether the reader has met an exit packet.
structure AdbSession where
  v2       : Bool := true
  incoming : Bytes := []
  received : Bytes := []
  ended    : Bool := false
  aborted  : Bool := false
  protocol : ShellProtocol
  exitCode : Int := 255
  exited   : Bool := false
  output   : Bytes := []
  promise  : Option Int := none
  deriving DecidableEq, Repr

structure ShellOptions where
  captureOutput : Bool := true
  timeout       : Int := 0
  deriving DecidableEq, Repr

-- Where a thread stands in `run_shell`.
inductive ShellPoint where
  | start
  -- The loop: its look at the flag, the time limit, the wait for a slice.
  | check
  | slice
  | wait
  -- Behind the loop: the session is over, or it is aborted.
  | exited (code : Int)
  | abort (canceled : Bool)
  | cancel
  | done (result : Result)
  deriving DecidableEq, Repr

-- Which of the two limits of a transfer has passed.
inductive Limit where
  | total
  | stall
  deriving DecidableEq, Repr

def Limit.status : Limit → Status
  | .total => .commandTimeout
  | .stall => .stallTimeout

-- Where a thread stands in `push` or `pull`, with the `reason` of its deadline.
inductive TransferPoint where
  | run (reason : Status)
  -- In `should_abort`: it has seen the flag, or it goes on to the deadline.
  | seen
  | limits
  -- The transfer has failed.
  | finished (reason : Status)
  | cancel
  deriving DecidableEq, Repr

structure TransferTimeout where
  total : Int := 0
  stall : Int := 30000
  deriving DecidableEq, Repr

inductive HealthCheckMode where
  | none
  | transport
  | shell
  deriving DecidableEq, Repr

structure InstallTimeout where
  createSession             : Int := 30000
  transfer                  : TransferTimeout := {}
  commit                    : Int := 900000
  commitHealthcheck         : HealthCheckMode := .transport
  commitHealthcheckInterval : Int := 10000
  commitHealthcheckFailures : Int := 3
  deriving DecidableEq, Repr

structure InstallMonitor where
  phase          : Phase := .createSession
  healthFailures : Nat := 0
  commitStarted  : Int := -1
  lastHealth     : Int := 0
  deriving DecidableEq, Repr

-- What the monitor finds: the time since the start, the progress of the transfer, and whether the
-- health check is passed.
structure Observation where
  now          : Int := 0
  transferring : Bool := false
  lastProgress : Int := 0
  alive        : Bool := true
  deriving DecidableEq, Repr

-- Where a thread stands in `monitor_install`.
inductive MonitorPoint where
  | loop
  | slept
  | check
  | cancel
  | limits
  | finished (giveUp : Option GiveUp)
  deriving DecidableEq, Repr

-- An attempt; `worker` is what its worker thread has left when it is done.
structure InstallAttempt where
  point   : MonitorPoint := .loop
  monitor : InstallMonitor := {}
  worker  : Option (Bool × Bytes) := none
  deriving DecidableEq, Repr

inductive Trial where
  | first
  | retry
  | reinstall
  deriving DecidableEq, Repr

-- Why `install` ends before its first attempt.
inductive Rejection where
  | noFiles
  | keepData
  | notFound (path : Bytes)
  | notSingle
  | noApk
  | slow
  deriving DecidableEq, Repr

-- The operations of a device; `removal` is the time limit of the uninstallation before a reinstall.
inductive Job where
  | push (path : Bytes)
  | pull
  | shell (options : ShellOptions)
  | uninstall (timeout : Int)
  | install (options : InstallOptions) (timeout : InstallTimeout) (removal : Int)
  deriving DecidableEq, Repr

-- Where a thread stands in `install`. The uninstallation before a reinstall is an operation with a
-- flag of its own; its thread stands before the check of the connection or in `run_shell`.
inductive InstallPoint where
  | arguments
  | prepare
  | attempt (trial : Trial) (attempt : InstallAttempt)
  | downgrade (result : Result)
  | conflict (result : Result)
  | removing (result : Result) (package : Bytes) (flag : CancelFlag) (point : Option ShellPoint)
  deriving DecidableEq, Repr

inductive Point where
  | online
  | file
  | transfer (point : TransferPoint)
  | shell (point : ShellPoint)
  | install (point : InstallPoint)
  | finish (result : Result)
  | done (result : Result)
  deriving DecidableEq, Repr

-- An operation that was registered, with the threads it starts. It is in the registry until it is
-- done.
structure Operation where
  job     : Job
  flag    : CancelFlag := {}
  point   : Point
  session : Option AdbSession := none
  deriving DecidableEq, Repr

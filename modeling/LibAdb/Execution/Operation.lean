import LibAdb.Execution.Install
import LibAdb.Library.Reach
import LibAdb.Objects.Operation

-- An operation of a device with its threads, the thread that reads its session and the threads that
-- cancel it or close the device. A thread stands at one point, and a step goes from one look at
-- what the threads share to the next.

namespace ShellProtocol

def readData (p : ShellProtocol) (fd : Bytes) : Option (ShellProtocol × Bytes) :=
  let length := min p.bytesLeft p.capacity
  if length ≤ fd.length then
    let data := fd.take length
    some ({ p with bytesLeft := p.bytesLeft - length, data, first := data.headD p.first },
      fd.drop length)
  else none

def readHeader : Bytes → Option (UInt8 × Nat × Bytes)
  | id :: a :: b :: c :: d :: rest =>
    some (id, a.toNat + 256 * b.toNat + 65536 * c.toNat + 16777216 * d.toNat, rest)
  | _ => none

-- `Read` with what is left on the descriptor; `none` when its bytes do not suffice.
def read (p : ShellProtocol) (fd : Bytes) : Option (ShellProtocol × Bytes) :=
  if p.bytesLeft = 0 then
    (readHeader fd).bind fun (id, bytesLeft, rest) => readData { p with id, bytesLeft } rest
  else p.readData fd

end ShellProtocol

namespace AdbSession

def handle (s : AdbSession) : AdbSession :=
  if s.protocol.id = 1 || s.protocol.id = 2 then { s with output := s.output ++ s.protocol.data }
  else if s.protocol.id = 3 then { s with exitCode := s.protocol.first.toNat, exited := true }
  else s

-- One round of the reader thread, which waits while the stream has no complete piece for it.
def readerThread (s : AdbSession) : Option AdbSession :=
  if s.promise.isSome then none
  else if s.v2 then
    match s.protocol.read s.incoming with
    | some (protocol, incoming) => some (handle { s with protocol, incoming })
    | none => if s.ended then some { s with promise := some s.exitCode } else none
  else if s.aborted || s.incoming = [] && s.ended then some { s with promise := some s.exitCode }
  else if s.incoming = [] then none
  else
    some { s with output := s.output ++ s.incoming.take 4096, incoming := s.incoming.drop 4096 }

def receive (s : AdbSession) (bytes : Bytes) : Option AdbSession :=
  if s.ended then none
  else some { s with incoming := s.incoming ++ bytes, received := s.received ++ bytes }

def abort (s : AdbSession) : AdbSession :=
  { s with aborted := true, ended := true }

end AdbSession

-- What a step of the operation's thread finds: whether the device is online and the local file can be
-- read; how the transfer has ended, unless it asks `should_abort`, with the limit that has passed
-- and the error of the listener; whether the session was started, with its protocol and what its
-- buffer holds, and the time left for its command; why the installation cannot begin and what its monitor observes.
structure Env where
  online      : Bool := true
  readable    : Bool := true
  transferred : Option Bool := none
  expired     : Option Limit := none
  error       : Bytes := []
  started     : Option (Bool × UInt8) := none
  left        : Int := 1
  rejected    : Option Rejection := none
  observation : Observation := {}
  deriving DecidableEq, Repr

namespace Device

def deviceLostResult (command : String) : Result :=
  { status := .deviceLost, error := ascii ("device is not connected (" ++ command ++ ")") }

def abortMessage (reason : Status) (what : Bytes) : Bytes :=
  what ++ ascii (match reason with
    | .stallTimeout => " stalled: no progress within the stall timeout"
    | .commandTimeout => " exceeded the total transfer timeout"
    | .connectionClosed => " aborted: connections were closed"
    | .canceled => " canceled"
    | _ => " aborted")

def abortResult (reason : Status) (what : Bytes) : Result :=
  { status := reason, phase := .transfer, error := abortMessage reason what }

end Device

namespace Rejection

def result : Rejection → Result
  | .noFiles => Device.failed .invalidArgument (ascii "no files to install")
  | .keepData => Device.failed .notImplemented
      (ascii "ConflictPolicy::ReinstallKeepData is reserved and not implemented")
  | .notFound path => Device.failed .localFileError (ascii "file not found or empty: " ++ path)
  | .notSingle => Device.failed .invalidArgument
      (ascii "InstallKind::Single expects exactly one file")
  | .noApk => Device.failed .invalidApk
      (ascii "cannot expand bundle (.apks/.zip): no apk inside or unzip failed")
  | .slow => Device.failed .commandTimeout
      (ascii "unpacking the bundle took longer than InstallTimeout::prepare")

end Rejection

namespace ShellPoint

-- The step of `run_shell` and what it makes of the session. Without an operation the flag is one
-- that nobody sets.
def next (options : ShellOptions) (flag : CancelFlag) (env : Env) (session : Option AdbSession) :
    ShellPoint → ShellPoint × Option AdbSession
  | .start =>
    match env.started with
    | some (v2, first) => (.check, some { v2, protocol := { first } })
    | none =>
      (.done { status := .internal, error := ascii "failed to start shell session" }, session)
  | .check => (if flag.triggered then .abort true else .slice, session)
  | .slice => (if options.timeout > 0 && env.left ≤ 0 then .abort false else .wait, session)
  | .wait =>
    match session.bind (·.promise) with
    | some code => (.exited code, session)
    | none      => (.check, session)
  | .exited code =>
    (if flag.triggered then .cancel
      else .done { exitCode := code, phase := .finalize, output }, session)
  | .abort canceled =>
    (if canceled then .cancel
      else .done {
        status := .commandTimeout, phase := .transfer, exitCode := -1,
        error := ascii "command timed out after " ++ Bytes.decimal options.timeout ++ ascii " ms",
        output }, session.map AdbSession.abort)
  | .cancel =>
    (.done {
      status := flag.status, phase := .transfer, exitCode := -1,
      error := ascii (if flag.status = .connectionClosed then
        "command aborted: connections were closed" else "command canceled"),
      output }, session)
  | .done r => (.done r, session)
where
  output : Bytes := if options.captureOutput then (session.map (·.output)).getD [] else []

end ShellPoint

namespace InstallMonitor

-- A round of `monitor_install` behind its look at the flag.
def look (timeout : InstallTimeout) (m : InstallMonitor) (o : Observation) :
    InstallMonitor × Option GiveUp :=
  if !o.transferring then
    (m, if timeout.createSession > 0 && o.now ≥ timeout.createSession then some .createTimeout
      else none)
  else if m.phase ≠ .commit && o.now - o.lastProgress < 1000 then
    ({ m with phase := .transfer },
      if timeout.transfer.total > 0 && o.now ≥ timeout.transfer.total then some .transferTimeout
      else if timeout.transfer.stall > 0 && o.now - o.lastProgress ≥ timeout.transfer.stall then
        some .transferStalled
      else none)
  else
    let m := if m.phase = .commit then m
      else { m with phase := .commit, commitStarted := o.now, lastHealth := o.now }
    if timeout.commit > 0 && o.now - m.commitStarted ≥ timeout.commit then (m, some .commitTimeout)
    else if timeout.commitHealthcheck = .none || timeout.commitHealthcheckInterval ≤ 0 ||
        o.now - m.lastHealth < timeout.commitHealthcheckInterval then (m, none)
    else if o.alive then ({ m with lastHealth := o.now, healthFailures := 0 }, none)
    else
      ({ m with lastHealth := o.now, healthFailures := m.healthFailures + 1 },
        if m.healthFailures + 1 ≥ timeout.commitHealthcheckFailures then some .deviceLost else none)

end InstallMonitor

namespace InstallAttempt

def next (timeout : InstallTimeout) (flag : CancelFlag) (env : Env) (a : InstallAttempt) :
    InstallAttempt :=
  match a.point with
  | .loop => { a with point := if a.worker.isSome then .finished none else .slept }
  | .slept => { a with point := if a.worker.isSome then .finished none else .check }
  | .check => { a with point := if flag.triggered then .cancel else .limits }
  | .cancel => { a with point := .finished (some (.canceled flag.connectionClosed a.monitor.phase)) }
  | .limits =>
    let (monitor, giveUp) := a.monitor.look timeout env.observation
    { a with monitor, point := if giveUp.isSome then .finished giveUp else .loop }
  | .finished _ => a

-- The result when the monitor has returned and the worker is joined.
def result (a : InstallAttempt) : Option Result :=
  match a.point, a.worker with
  | .finished giveUp, some (ok, output) => some (Device.attemptResult giveUp ok output)
  | _, _ => none

end InstallAttempt

namespace Operation

inductive Action where
  -- `Device::close` or `Client::close_all` marks the operations; a thread cancels this one or the
  -- uninstallation that it has started.
  | mark
  | cancel (outer inner : Bool)
  -- The next step of the operation's thread, and the end of the worker of an installation.
  | resume (env : Env)
  | work (ok : Bool) (output : Bytes)
  -- The looper passes bytes on to the session or closes its end, and the reader thread goes on.
  | receive (bytes : Bytes)
  | hangup
  | read
  deriving DecidableEq, Repr

def start (job : Job) : Operation :=
  match job with
  | .install _ _ _ => { job, point := .install .arguments }
  | _              => { job, point := .online }

def name : Job → String
  | .push _        => "push"
  | .pull          => "pull"
  | .shell _       => "shell"
  | .uninstall _   => "uninstall"
  | .install _ _ _ => "install"

-- The first point behind the check of the connection.
def enter : Job → Point
  | .push _        => .file
  | .pull          => .transfer (.run .ok)
  | .shell _       => .shell .start
  | .uninstall _   => .shell .start
  | .install _ _ _ => .install .prepare

def shellOptions : Job → ShellOptions
  | .shell options     => options
  | .uninstall timeout => { timeout }
  | _                  => {}

-- What the operation makes of the result of `run_shell`.
def shellResult (job : Job) (r : Result) : Result :=
  match job with
  | .uninstall _ => Device.uninstallResult r
  | _            => r

def localFileError : Job → Result
  | .push path => {
      status := .localFileError, error := ascii "cannot read local file: " ++ path }
  | _          => {}

def nextTransfer (job : Job) (flag : CancelFlag) (env : Env) : TransferPoint → Point
  | .run reason =>
    match env.transferred with
    | some true  => .finish { phase := .transfer }
    | some false => .transfer (.finished reason)
    | none       =>
      if reason ≠ .ok then .transfer (.run reason)
      else .transfer (if flag.triggered then .seen else .limits)
  | .seen => .transfer (.run flag.status)
  | .limits => .transfer (.run ((env.expired.map Limit.status).getD .ok))
  | .finished reason =>
    if reason ≠ .ok then .finish (Device.abortResult reason (ascii (name job)))
    else if flag.triggered then .transfer .cancel
    else
      .finish {
        status := .ioError, phase := .transfer,
        error := if env.error = [] then ascii (name job ++ " failed") else env.error }
  | .cancel => .finish (Device.abortResult flag.status (ascii (name job)))

def afterAttempt (r : Result) : Trial → Point
  | .first     => .install (.downgrade r)
  | .retry     => .install (.conflict { r with retries := r.retries + 1 })
  | .reinstall => .finish { r with retries := r.retries + 1 }

def nextConflict (options : InstallOptions) (flag : CancelFlag) (r : Result) : Point :=
  if Device.reinstallsConflict options r && !flag.triggered then
    let package := Device.conflictPackage options r
    if package = [] then
      .finish { r with
        error := ascii ("signature mismatch: package name is unknown, set " ++
          "InstallOptions::package_name"),
        status := if options.packageNameSource = .explicit then .invalidArgument else r.status }
    else .install (.removing r package {} none)
  else .finish r

-- What `install` makes of the result of the uninstallation.
def afterRemoval (r : Result) (package : Bytes) (removed : Result) : Point :=
  if removed.status ≠ .ok then
    .finish { r with
      error := ascii "signature mismatch: cannot uninstall " ++ package ++ ascii ": " ++
        removed.error }
  else .install (.attempt .reinstall {})

def nextRemoval (env : Env) (removal : Int) (r : Result) (package : Bytes) (flag : CancelFlag)
    (session : Option AdbSession) : Option ShellPoint → Point × Option AdbSession
  | none =>
    (if env.online then .install (.removing r package flag (some .start))
      else afterRemoval r package (Device.deviceLostResult "uninstall"), session)
  | some (.done removed) => (afterRemoval r package (Device.uninstallResult removed), session)
  | some point =>
    let (point, session) := point.next { timeout := removal } flag env session
    (.install (.removing r package flag (some point)), session)

def nextInstall (options : InstallOptions) (timeout : InstallTimeout) (removal : Int)
    (flag : CancelFlag) (env : Env) (session : Option AdbSession) :
    InstallPoint → Point × Option AdbSession
  | .arguments =>
    match env.rejected with
    | some r => (.finish r.result, session)
    | none   => (.online, session)
  | .prepare =>
    match env.rejected with
    | some r => (.finish r.result, session)
    | none   => (.install (.attempt .first {}), session)
  | .attempt trial a =>
    match a.result with
    | some r => (afterAttempt r trial, session)
    | none   => (.install (.attempt trial (a.next timeout flag env)), session)
  | .downgrade r =>
    (if Device.retriesDowngrade options r && !flag.triggered then .install (.attempt .retry {})
      else .install (.conflict r), session)
  | .conflict r => (nextConflict options flag r, session)
  | .removing r package inner point => nextRemoval env removal r package inner session point

def nextShell (job : Job) (flag : CancelFlag) (env : Env) (session : Option AdbSession) :
    ShellPoint → Point × Option AdbSession
  | .done r => (.finish (shellResult job r), session)
  | point   =>
    let (point, session) := point.next (shellOptions job) flag env session
    (.shell point, session)

def resume (o : Operation) (env : Env) : Point × Option AdbSession :=
  match o.point with
  | .online =>
    (if env.online then enter o.job else .finish (Device.deviceLostResult (name o.job)), o.session)
  | .file =>
    (if env.readable then .transfer (.run .ok) else .finish (localFileError o.job), o.session)
  | .transfer point => (nextTransfer o.job o.flag env point, o.session)
  | .shell point => nextShell o.job o.flag env o.session point
  | .install point =>
    match o.job with
    | .install options timeout removal =>
      nextInstall options timeout removal o.flag env o.session point
    | _ => (o.point, o.session)
  | .finish r => (.done r, o.session)
  | .done r => (.done r, o.session)

def isDone : Point → Bool
  | .done _ => true
  | _       => false

def hasGivenUp : Point → Bool
  | .install (.attempt _ { point := .finished (some _), .. }) => true
  | _ => false

-- A change of the flag of the uninstallation, which is registered under the same device.
def modifyInner (f : CancelFlag → CancelFlag) : Point → Point
  | .install (.removing r package flag point) => .install (.removing r package (f flag) point)
  | point => point

def endWorker (ok : Bool) (output : Bytes) : Point → Option Point
  | .install (.attempt trial a) =>
    if a.worker.isSome then none
    else some (.install (.attempt trial { a with worker := some (ok, output) }))
  | _ => none

def next (o : Operation) : Action → Option Operation
  | .mark =>
    if isDone o.point then none
    else
      some { o with
        flag := { o.flag with connectionClosed := true }
        point := modifyInner ({ · with connectionClosed := true }) o.point }
  | .cancel outer inner =>
    if isDone o.point then none
    else
      some { o with
        flag := { o.flag with canceled := o.flag.canceled || outer }
        point := modifyInner (fun f => { f with canceled := f.canceled || inner }) o.point }
  | .resume env =>
    if isDone o.point then none
    else
      let (point, session) := o.resume env
      some { o with point, session }
  | .work ok output => (endWorker ok output o.point).map ({ o with point := · })
  | .receive bytes => (o.session.bind (·.receive bytes)).map ({ o with session := some · })
  | .hangup => o.session.map fun session => { o with session := some { session with ended := true } }
  | .read => (o.session.bind AdbSession.readerThread).map ({ o with session := some · })

def Runs (P : Operation → Action → Prop) : Operation → Operation → Prop :=
  Reach (fun s a s' => s.next a = some s') P

end Operation

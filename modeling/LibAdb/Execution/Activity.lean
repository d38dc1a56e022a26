import LibAdb.Execution.Operation

-- A command that the worker of an attempt sends on a stream of its own, with the number of blocks
-- that `copy_to_file` finds in the file if there is one to be copied. The request at
-- `finalize_session` is the last one.
structure InstallCommand where
  service : Bytes
  blocks  : Option Nat := none
  last    : Bool := false
  deriving DecidableEq, Repr

-- Where the worker stands with the stream that it has open: in `copy_to_file`, with the blocks that
-- are left, or in `read_status_line`.
inductive Stage where
  | copying (left : Nat)
  | reading
  deriving DecidableEq, Repr

-- The worker, and whether it stands behind its last command.
structure InstallWorker where
  stage   : Option Stage := none
  closing : Bool := false
  deriving DecidableEq, Repr

inductive Opening where
  | sync
  | shell
  | healthCheck
  | command (service : Bytes)
  deriving DecidableEq, Repr

-- An operation with the worker of the attempt that it makes and the streams that were opened for it
-- so far.
structure Activity where
  operation : Operation
  worker    : Option InstallWorker := none
  opened    : List Opening := []
  deriving DecidableEq, Repr

namespace InstallMonitor

-- Whether `look` goes on to a health check that runs a command on the device.
def probes (timeout : InstallTimeout) (m : InstallMonitor) (o : Observation) : Bool :=
  let committing := m.phase = .commit
  let commitStarted := if committing then m.commitStarted else o.now
  let lastHealth := if committing then m.lastHealth else o.now
  o.transferring && (committing || o.now - o.lastProgress ≥ 1000) &&
    !(timeout.commit > 0 && o.now - commitStarted ≥ timeout.commit) &&
    timeout.commitHealthcheck = .shell && timeout.commitHealthcheckInterval > 0 &&
    o.now - lastHealth ≥ timeout.commitHealthcheckInterval

end InstallMonitor

namespace Activity

inductive Action where
  -- A step of the operation without its worker, or the end of the worker.
  | operation (action : Operation.Action)
  | launch
  -- The worker opens the stream of a command; a round of `copy_to_file`, in which the file could be
  -- read; the reply was read, and the stream is closed; the worker returns without a last command.
  | connect (command : InstallCommand)
  | copy (ok : Bool)
  | read
  | leave
  deriving DecidableEq, Repr

def isAttempt : Point → Bool
  | .install (.attempt _ _) => true
  | _ => false

def openings (o : Operation) (env : Env) : List Opening :=
  match o.point with
  | .online =>
    match o.job with
    | .pull => if env.online then [.sync] else []
    | _     => []
  | .file => if env.readable then [.sync] else []
  | .shell .start => if env.started.isSome then [.shell] else []
  | .install (.removing _ _ _ (some .start)) => if env.started.isSome then [.shell] else []
  | .install (.attempt _ a) =>
    match o.job with
    | .install _ timeout _ =>
      if a.point = .limits && a.result.isNone && a.monitor.probes timeout env.observation then
        [.healthCheck]
      else []
    | _ => []
  | _ => []

def InstallCommand.stage (c : InstallCommand) : Stage :=
  match c.blocks with
  | some blocks => .copying blocks
  | none        => .reading

-- The observer is asked behind each block, and a copy that it stops closes its stream.
def copy (w : InstallWorker) (aborted ok : Bool) : Option InstallWorker :=
  match w.stage with
  | some (.copying left) =>
    if !ok then some { w with stage := none }
    else match left with
      | 0 => some { w with stage := some .reading }
      | left + 1 => some { w with stage := if aborted then none else some (.copying left) }
  | _ => none

def next (s : Activity) : Action → Option Activity
  | .operation (.resume env) =>
    (s.operation.next (.resume env)).map fun operation => {
      operation,
      worker := if isAttempt operation.point then s.worker else none,
      opened := s.opened ++ openings s.operation env }
  | .operation (.work ok output) =>
    if s.worker = some { closing := true } then
      (s.operation.next (.work ok output)).map ({ s with operation := · })
    else none
  | .operation a => (s.operation.next a).map ({ s with operation := · })
  | .launch =>
    if isAttempt s.operation.point && s.worker.isNone then some { s with worker := some {} }
    else none
  | .connect c =>
    if s.worker = some {} then
      some { s with
        worker := some { stage := some (InstallCommand.stage c), closing := c.last },
        opened := s.opened ++ [.command c.service] }
    else none
  | .copy ok =>
    (s.worker.bind (copy · (Operation.hasGivenUp s.operation.point) ok)).map
      ({ s with worker := some · })
  | .read =>
    if s.worker.bind (·.stage) = some .reading then
      s.worker.map fun w => { s with worker := some { w with stage := none } }
    else none
  | .leave => if s.worker = some {} then some { s with worker := some { closing := true } } else none

def initial (job : Job) : Activity :=
  { operation := .start job }

def Runs (P : Activity → Action → Prop) : Activity → Activity → Prop :=
  Reach (fun s a s' => s.next a = some s') P

end Activity

import LibAdb.Execution.Operation
import LibAdb.Objects.Events

structure OperationContext where
  id     : Nat
  serial : Bytes
  phase  : Phase := .none
  deriving DecidableEq, Repr

namespace OperationContext

-- The calls of a context between its start and its end; `progress` is one that is not throttled.
inductive Note where
  | phase (phase : Phase)
  | progress (done : Nat)
  | heartbeat (message : Bytes)
  | output (chunk : Bytes) (isStderr : Bool)
  | retry (reason : Status) (message : Bytes)
  deriving DecidableEq, Repr

def make (c : OperationContext) (type : EventType) : Event :=
  { type, serial := c.serial, op := c.id, phase := c.phase }

def start (c : OperationContext) : Event :=
  c.make .operationStarted

def setPhase (c : OperationContext) (phase : Phase) : OperationContext :=
  { c with phase }

def note (c : OperationContext) : Note → OperationContext × List Event
  | .phase phase =>
    if phase = c.phase then (c, [])
    else (c.setPhase phase, [(c.setPhase phase).make .operationPhaseChanged])
  | .progress done => (c, [{ c.make .operationProgress with bytesDone := done }])
  | .heartbeat message => (c, [{ c.make .operationHeartbeat with message }])
  | .output chunk isStderr =>
    (c, [{ c.make .operationOutput with message := chunk, bytesDone := isStderr.toNat }])
  | .retry reason message => (c, [{ c.make .operationRetry with status := reason, message }])

def terminal : Status → EventType
  | .ok => .operationFinished
  | .canceled | .connectionClosed => .operationCanceled
  | .commandTimeout | .stallTimeout => .operationTimeout
  | _ => .operationFailed

-- `finish`, with the bytes that were transferred.
def finish (c : OperationContext) (r : Result) (bytes : Nat) : List Event :=
  { c.make (terminal r.status) with
    phase := r.phase, status := r.status, remoteCode := r.remoteCode, message := r.error,
    bytesDone := bytes } ::
  if bytes > 0 then
    [{ c.make .operationStats with phase := r.phase, status := r.status, bytesDone := bytes }]
  else []

end OperationContext

-- An operation with its context, next to other operations: the ids come from one counter. `nested`
-- is the context of an uninstallation before a reinstall, and `removals` has the ids of those that
-- have returned, with their results. `published` is what the bus has taken that has this mask.
structure Lifecycle where
  mask      : UInt64
  serial    : Bytes
  operation : Operation
  context   : Option OperationContext := none
  started   : Bool := false
  nested    : Option OperationContext := none
  removals  : List (Nat × Result) := []
  others    : List Nat := []
  counter   : Nat := 0
  published : List Event := []
  deriving DecidableEq, Repr

namespace Lifecycle

inductive Action where
  -- Another operation gets its id; somebody else publishes an event.
  | other
  | publish (event : Event)
  | create
  | start
  -- A call of the context, or of that of the uninstallation.
  | note (nested : Bool) (note : OperationContext.Note)
  -- A step of the operation, with the bytes that were transferred when it ends.
  | step (action : Operation.Action) (bytes : Nat)
  deriving DecidableEq, Repr

def resumes : Operation.Action → Bool
  | .resume _ => true
  | _ => false

def publish (l : Lifecycle) (events : List Event) : Lifecycle :=
  { l with published := l.published ++ events.filter (·.type.isIn l.mask) }

-- The events of others are of no operation or of theirs; the bus reports handlers that throw, under
-- the id of the event they were called with.
def isForeign (l : Lifecycle) (e : Event) : Bool :=
  e.op == 0 || l.others.contains e.op || e.type == .internalError

def note (l : Lifecycle) (nested : Bool) (note : OperationContext.Note) : Option Lifecycle :=
  if nested then
    l.nested.map fun c => { l with nested := some (c.note note).1 }.publish (c.note note).2
  else l.context.map fun c => { l with context := some (c.note note).1 }.publish (c.note note).2

-- The result of the uninstallation when it returns at the given point.
def removed (env : Env) : Point → Option Result
  | .install (.removing _ _ _ none) =>
    if env.online then none else some (Device.deviceLostResult "uninstall")
  | .install (.removing _ _ _ (some (.done r))) => some (Device.uninstallResult r)
  | _ => none

def isRemoving : Point → Bool
  | .install (.removing _ _ _ _) => true
  | _ => false

-- What the contexts publish when the operation's thread goes from one point to the next.
def follow (l : Lifecycle) (env : Env) (bytes : Nat) (old new : Point) : Lifecycle :=
  match old with
  | .finish r =>
    match l.context with
    | some c => l.publish (c.finish r bytes)
    | none   => l
  | _ =>
    match removed env old, l.nested with
    | some r, some c =>
      { l with nested := none, removals := l.removals ++ [(c.id, r)] }.publish (c.finish r 0)
    | _, _ =>
      if isRemoving new && !isRemoving old then
        let c : OperationContext := { id := l.counter + 1, serial := l.serial }
        { l with nested := some c, counter := l.counter + 1 }.publish [c.start]
      else l

def next (l : Lifecycle) : Action → Option Lifecycle
  | .other => some { l with others := l.others ++ [l.counter + 1], counter := l.counter + 1 }
  | .publish e => if l.isForeign e then some (l.publish [e]) else none
  | .create =>
    if l.context.isSome then none
    else
      some { l with
        context := some { id := l.counter + 1, serial := l.serial }, counter := l.counter + 1 }
  | .start =>
    if l.started then none else l.context.map fun c => { l with started := true }.publish [c.start]
  | .note nested n => l.note nested n
  | .step a bytes =>
    if resumes a && !l.started then none
    else
      (l.operation.next a).map fun o =>
        match a with
        | .resume env => { l with operation := o }.follow env bytes l.operation.point o.point
        | _           => { l with operation := o }

def initial (mask : UInt64) (serial : Bytes) (job : Job) : Lifecycle :=
  { mask, serial, operation := .start job }

def Runs (P : Lifecycle → Action → Prop) : Lifecycle → Lifecycle → Prop :=
  Reach (fun l a l' => l.next a = some l') P

end Lifecycle

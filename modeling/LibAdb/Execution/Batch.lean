import LibAdb.Objects.Packet

-- `AdbManager::runOnDevices`: worker threads that share one index into the list of addresses, and
-- the caller that starts them and joins them.
structure Batch where
  addresses  : List Bytes
  callable   : Bool := true
  maxThreads : Nat := 0

namespace Batch

inductive Outcome
  | returned
  | threw (what : Bytes)
  | threwUnknown

def Outcome.report (address : Bytes) : Outcome → List Bytes
  | .returned     => []
  | .threw what   => [ascii "AdbManager: task for " ++ address ++ ascii " threw: " ++ what]
  | .threwUnknown => [ascii "AdbManager: task for " ++ address ++ ascii " threw unknown exception"]

-- `ready` is the top of the worker's loop; `fetched` is before the index is compared.
inductive Worker
  | ready
  | fetched (index : Nat)
  | running (index : Nat) (address : Bytes)
  | returned

inductive Caller
  | spawning
  | joining (worker : Nat)
  | returned
  deriving DecidableEq

structure State where
  nextIndex : Nat := 0
  workers   : List Worker := []
  caller    : Caller := .spawning
  begun     : List (Nat × Bytes) := []
  ended     : List (Nat × Bytes) := []
  log       : List Bytes := []

-- Who takes the next step, and how the call of the task ends that it ends.
inductive Action
  | caller
  | worker (w : Nat)
  | finish (w : Nat) (outcome : Outcome)

variable (b : Batch)

def workersCount : Nat :=
  if b.maxThreads = 0 ∨ b.addresses.length < b.maxThreads then b.addresses.length else b.maxThreads

def start : State :=
  if b.addresses.isEmpty || !b.callable then { caller := .returned } else {}

def callerStep (s : State) : Option State :=
  match s.caller with
  | .spawning  =>
    if s.workers.length < b.workersCount then
      some { s with workers := s.workers ++ [.ready] }
    else
      some { s with caller := .joining 0 }
  | .joining k =>
    match s.workers[k]? with
    | none           => some { s with caller := .returned }
    | some .returned => some { s with caller := .joining (k + 1) }
    | some _         => none
  | .returned  => none

def workerStep (s : State) (w : Nat) : Option State :=
  match s.workers[w]? with
  | some .ready =>
    some { s with
      nextIndex := s.nextIndex + 1
      workers := s.workers.set w (.fetched s.nextIndex) }
  | some (.fetched i) =>
    match b.addresses[i]? with
    | none         => some { s with workers := s.workers.set w .returned }
    | some address =>
      some { s with
        workers := s.workers.set w (.running i address)
        begun := s.begun ++ [(i, address)] }
  | _ => none

-- The handlers swallow the exception, and the worker goes on.
def finishStep (s : State) (w : Nat) (outcome : Outcome) : Option State :=
  match s.workers[w]? with
  | some (.running i address) =>
    some { s with
      workers := s.workers.set w .ready
      ended := s.ended ++ [(i, address)]
      log := s.log ++ outcome.report address }
  | _ => none

def next (s : State) : Action → Option State
  | .caller           => b.callerStep s
  | .worker w         => b.workerStep s w
  | .finish w outcome => finishStep s w outcome

-- The limit that `Client::for_each` sets. For both options 0 stands for no limit.
def forEachThreads (maxParallel maxConnections : Nat) : Nat :=
  if 0 < maxConnections ∧ (maxParallel = 0 ∨ maxConnections < maxParallel) then maxConnections
  else maxParallel

end Batch

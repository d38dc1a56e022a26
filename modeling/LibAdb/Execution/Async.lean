import LibAdb.Library.Reach

-- The pool of the asynchronous operations with the threads that use it. A thread stands at one point
-- of its call, and what it does under the lock of the pool is one step.

-- `completed` counts the calls of `Operation::Impl::complete`. An operation of a batch has no device.
structure AsyncOperation where
  device    : Option Nat
  canceled  : Bool := false
  completed : Nat := 0
  deriving DecidableEq, Repr

-- A thread in `worker_loop`. The task of a device's operation is over when the counter of the device
-- was decremented.
inductive Worker where
  | idle
  | run (op : Nat)
  | finished (op : Nat)
  | exited
  deriving DecidableEq, Repr

inductive AsyncCall where
  -- `start_async` and, from the new operation on, `run_all_async`.
  | count (device : Nat)
  | create (device : Option Nat)
  | submit (op : Nat)
  | configure (op : Nat)
  | push (op : Nat)
  | handed (op : Nat)
  -- `AsyncPool::stop`.
  | stop
  | join (rest : List Nat)
  | stopped
  deriving DecidableEq, Repr

-- `threads` has all threads that were ever started, and `workers` the numbers of those in `workers_`.
-- `active` is `async_active` of each device.
structure AsyncPool where
  running    : Bool := false
  workers    : List Nat := []
  queue      : List Nat := []
  threads    : List Worker := []
  operations : List AsyncOperation := []
  active     : Nat → Int := fun _ => 0
  calls      : List AsyncCall := []

namespace AsyncPool

def defaultThreads : Nat := 4

def configure (p : AsyncPool) (threads : Nat) : AsyncPool :=
  let missing := max threads 1 - p.workers.length
  { p with
    running := true
    workers := p.workers ++ List.range' p.threads.length missing
    threads := p.threads ++ List.replicate missing .idle }

def complete (p : AsyncPool) (op : Nat) : AsyncPool :=
  { p with
    operations := p.operations.modify op fun o => { o with completed := o.completed + 1 } }

def fetchAdd (p : AsyncPool) (device : Nat) (n : Int) : AsyncPool :=
  { p with active := fun d => if d = device then p.active d + n else p.active d }

def resume (p : AsyncPool) : AsyncCall → Option (AsyncPool × AsyncCall)
  | .count device => some (p.fetchAdd device 1, .create (some device))
  | .create device =>
    some ({ p with operations := p.operations ++ [{ device }] }, .submit p.operations.length)
  | .submit op =>
    if !p.running || p.workers.isEmpty then some (p, .configure op)
    else some ({ p with queue := p.queue ++ [op] }, .handed op)
  | .configure op => some (p.configure defaultThreads, .push op)
  | .push op => some ({ p with queue := p.queue ++ [op] }, .handed op)
  | .handed _ => none
  | .stop =>
    if !p.running && p.workers.isEmpty then some (p, .stopped)
    else some ({ p with running := false, queue := [], workers := [] }, .join p.workers)
  | .join [] => some (p, .stopped)
  | .join (w :: rest) => if p.threads[w]? = some .exited then some (p, .join rest) else none
  | .stopped => none

-- The next step of a worker. `threw` is whether the task ends with an exception.
def work (p : AsyncPool) (threw : Bool) : Worker → Option (AsyncPool × Worker)
  | .idle =>
    match p.queue with
    | op :: queue => some ({ p with queue }, .run op)
    | []          => if p.running then none else some (p, .exited)
  | .run op =>
    if threw then some (p, .idle)
    else
      match (p.operations[op]?).bind (·.device) with
      | some device => some (p.fetchAdd device (-1), .finished op)
      | none        => some (p.complete op, .idle)
  | .finished op => some (p.complete op, .idle)
  | .exited => none

inductive Action where
  | configure (threads : Nat)
  -- A thread calls an asynchronous operation of a device or a batch, or `AsyncPool::stop`.
  | startAsync (device : Nat)
  | runAll
  | stop
  | cancel (op : Nat)
  | resume (k : Nat)
  | work (w : Nat) (threw : Bool)
  deriving DecidableEq, Repr

def enter (p : AsyncPool) (call : AsyncCall) : AsyncPool :=
  { p with calls := p.calls ++ [call] }

def next (p : AsyncPool) : Action → Option AsyncPool
  | .configure threads => some (p.configure threads)
  | .startAsync device => some (p.enter (.count device))
  | .runAll => some (p.enter (.create none))
  | .stop => some (p.enter .stop)
  | .cancel op =>
    some { p with operations := p.operations.modify op ({ · with canceled := true }) }
  | .resume k =>
    (p.calls[k]?).bind fun call => (p.resume call).map fun (p, call) =>
      { p with calls := p.calls.set k call }
  | .work w threw =>
    (p.threads[w]?).bind fun worker => (p.work threw worker).map fun (p, worker) =>
      { p with threads := p.threads.set w worker }

def Runs (P : AsyncPool → Action → Prop) : AsyncPool → AsyncPool → Prop :=
  Reach (fun s a s' => s.next a = some s') P

def Reachable (P : AsyncPool → Action → Prop) (s : AsyncPool) : Prop :=
  Runs P {} s

end AsyncPool

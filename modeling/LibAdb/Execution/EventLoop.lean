import LibAdb.Library.Reach
import LibAdb.Library.Threads

-- The thread of `AdbManager` that runs `fdevent_loop`, with the threads that start and stop it and
-- those that queue functions for it.

-- Where the thread stands: before `Loop` has reset the flag, before it tests it, in `epoll_wait`, in
-- `HandleEvents` (with the event of the interrupt fd or without), before it looks at the run queue,
-- in a function of the queue.
inductive LoopPoint where
  | spawned
  | check
  | poll
  | handle (interrupted : Bool)
  | flush
  | function (f : Nat)
  | exited
  deriving DecidableEq, Repr

-- An instance of the loop has the number of the call of `start` that made it.
structure LoopThread where
  loop  : Nat
  point : LoopPoint := .spawned
  deriving DecidableEq, Repr

-- The calls of the threads, with the steps that are left. Functions are numbered in the order they
-- are queued in, and a `stop` knows the instance that was running when it was called.
inductive LoopCall where
  -- `AdbManager::start`.
  | start
  | setRunning
  | spawn
  -- `AdbManager::stop` after it has closed the devices, and `TerminateLoop` in it.
  | stop
  | clearRunning (loop : Nat)
  | terminate (loop : Nat)
  | wake
  | join
  -- `AdbSession::start` and `abort` queue a function (`fdevent_context::Run`) and wait for it.
  | run
  | interrupt (f : Nat)
  | wait (f : Nat)
  | returned
  deriving DecidableEq, Repr

-- `thread` is `event_thread_` while it is joinable, and `interrupted` the state of the eventfd. The
-- fields from `starter` on only record: who has set `is_running_`, which loops have returned, and for
-- which loops `TerminateLoop` was called before they had, with the number of functions queued by
-- then.
structure EventLoop where
  running     : Bool := false
  thread      : Option LoopThread := none
  terminate   : Bool := false
  interrupted : Bool := false
  queued      : Nat := 0
  runQueue    : List Nat := []
  ran         : List Nat := []
  calls       : List LoopCall := []
  aborted     : Bool := false
  starter     : Nat := 0
  ended       : List Nat := []
  told        : List (Nat × Nat) := []
  deriving DecidableEq, Repr

namespace EventLoop

def tell (s : EventLoop) (loop : Nat) : List (Nat × Nat) :=
  if s.ended.contains loop then s.told else s.told ++ [(loop, s.queued)]

-- The next step of call `k`. Assigning to a thread that is joinable ends the process.
def resume (s : EventLoop) (k : Nat) : LoopCall → Option (EventLoop × LoopCall)
  | .start => some (s, if s.running then .returned else .setRunning)
  | .setRunning => some ({ s with running := true, starter := k }, .spawn)
  | .spawn =>
    if s.thread.isSome then some ({ s with aborted := true }, .returned)
    else some ({ s with thread := some { loop := k } }, .returned)
  | .stop => some (s, if s.running then .clearRunning s.starter else .returned)
  | .clearRunning loop => some ({ s with running := false }, .terminate loop)
  | .terminate loop => some ({ s with terminate := true, told := s.tell loop }, .wake)
  | .wake => some ({ s with interrupted := true }, .join)
  | .join =>
    if s.thread.all (·.point = .exited) then some ({ s with thread := none }, .returned) else none
  | .run =>
    some ({ s with queued := s.queued + 1, runQueue := s.runQueue ++ [s.queued] },
      .interrupt s.queued)
  | .interrupt f => some ({ s with interrupted := true }, .wait f)
  | .wait f => if s.ran.contains f then some (s, .returned) else none
  | .returned => none

-- The next step of the thread. `event` is whether another fd has an event or a timeout has expired.
-- The callback of the interrupt fd resets the eventfd.
def loop (s : EventLoop) (event : Bool) (th : LoopThread) : Option (EventLoop × LoopPoint) :=
  match th.point with
  | .spawned => some ({ s with terminate := false }, .check)
  | .check =>
    if s.terminate then some ({ s with ended := s.ended ++ [th.loop] }, .exited)
    else some (s, .poll)
  | .poll => if s.interrupted || event then some (s, .handle s.interrupted) else none
  | .handle interrupted =>
    some ({ s with interrupted := s.interrupted && !interrupted }, .flush)
  | .flush =>
    match s.runQueue with
    | [] => some (s, .check)
    | f :: runQueue => some ({ s with runQueue }, .function f)
  | .function f => some ({ s with ran := s.ran ++ [f] }, .flush)
  | .exited => none

inductive Action where
  | call (c : LoopCall)
  | resume (k : Nat)
  | loop (event : Bool)
  deriving DecidableEq, Repr

def isEntry : LoopCall → Bool
  | .start | .stop | .run => true
  | _ => false

def step (s : EventLoop) : Action → Option EventLoop
  | .call c => if isEntry c then some { s with calls := s.calls ++ [c] } else none
  | .resume k =>
    (s.calls[k]?).bind fun c => (s.resume k c).map fun r =>
      { r.1 with calls := s.calls.set k r.2 }
  | .loop event =>
    s.thread.bind fun th => (s.loop event th).map fun r =>
      { r.1 with thread := some { th with point := r.2 } }

def next (s : EventLoop) (a : Action) : Option EventLoop :=
  if s.aborted then none else s.step a

def Runs (P : EventLoop → Action → Prop) : EventLoop → EventLoop → Prop :=
  Reach (fun s a s' => s.next a = some s') P

def Reachable (P : EventLoop → Action → Prop) (s : EventLoop) : Prop :=
  Runs P {} s

end EventLoop

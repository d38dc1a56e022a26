import LibAdb.Library.Reach
import LibAdb.Objects.Events

namespace EventBus

def wants (b : EventBus) (type : EventType) : Bool :=
  type.isIn b.combinedMask

def recomputeMask (b : EventBus) : EventBus :=
  { b with combinedMask := b.subscribers.foldl (fun mask s => mask ||| s.mask) 0 }

def drop (b : EventBus) (p : Posted) : EventBus :=
  { b with
    dropped := b.dropped ++ [p]
    droppedTotal := b.droppedTotal + 1
    droppedPending := b.droppedPending + 1 }

-- What `publish` does under the lock. A full queue is not empty, since its limit is not 0.
def enqueue (b : EventBus) (e : Event) : EventBus :=
  let p := ⟨b.accepted.length, e⟩
  let b := { b with accepted := b.accepted ++ [e] }
  if b.queueLimit > 0 && b.queue.length ≥ b.queueLimit then
    match b.queue.find? (·.droppable), b.queue with
    | some victim, queue => { b.drop victim with queue := queue.eraseP (·.droppable) ++ [p] }
    | none, oldest :: rest =>
      if p.droppable then b.drop p else { b.drop oldest with queue := rest ++ [p] }
    | none, [] => b
  else { b with queue := b.queue ++ [p] }

def start (b : EventBus) : EventBus :=
  if b.running then b
  else
    { b with
      running := true
      dispatcher := some b.dispatchers.length
      dispatchers := b.dispatchers ++ [[.wait]] }

def subscribe (b : EventBus) (mask : UInt64) : EventBus :=
  recomputeMask { b with
    subscribers := b.subscribers ++ [⟨b.nextId, mask⟩]
    nextId := b.nextId + 1 }

def unsubscribe (b : EventBus) (id : Nat) : EventBus :=
  if b.subscribers.any (·.id == id) then
    recomputeMask { b with
      subscribers := b.subscribers.eraseP (·.id == id)
      primaryId := if b.primaryId = id then 0 else b.primaryId }
  else b

def overflow (n : Nat) : Event :=
  { type := .internalError, status := .internal, bytesDone := n,
    message := ascii "event queue overflow: " ++ Bytes.decimal n ++ ascii " event(s) dropped" }

-- What is published when a handler throws, with the text of a standard exception.
def handlerThrew (e : Event) (what : Option Bytes) : Event :=
  { type := .internalError, status := .internal, serial := e.serial, op := e.op,
    message := match what with
      | some what => ascii "event handler threw: " ++ what
      | none      => ascii "event handler threw an unknown exception" }

-- A round of `dispatch_loop` begins: it takes the first event and a copy of the subscribers. The
-- losses are reported once the queue is empty.
def take (b : EventBus) (p : Posted) (queue : List Posted) : EventBus × List BusStep :=
  let report := if queue = [] then b.droppedPending else 0
  let snapshot := b.subscribers.filter (p.event.type.isIn ·.mask)
  ({ b with
      queue, dispatching := true, droppedPending := b.droppedPending - report
      dispatched := b.dispatched ++ [p] },
    snapshot.map (.handle p) ++ (if report > 0 then [.publish (overflow report)] else []) ++
      [.finish])

inductive Outcome where
  | returns
  | throws (what : Option Bytes)
  deriving DecidableEq, Repr

-- One step of a thread and what it makes of it; `none` while the thread has to wait.
def step (b : EventBus) (outcome : Outcome) : BusStep → Option (EventBus × List BusStep)
  | .publish e => some (b, if b.wants e.type then [.enqueue e] else [])
  | .enqueue e => some (b.enqueue e, [])
  | .start => some (b.start, [])
  | .stop =>
    if b.running then
      some ({ b with running := false, dispatcher := none }, b.dispatcher.toList.map .join)
    else some (b, [])
  | .join d => if b.dispatchers[d]? = some [] then some (b, []) else none
  | .subscribe mask primary =>
    some (b.subscribe mask, .start :: if primary then [.setPrimary b.nextId] else [])
  | .unsubscribe id => some (b.unsubscribe id, [])
  | .replacePrimary handler =>
    some (b, (if b.primaryId = 0 then [] else [.unsubscribe b.primaryId]) ++
      handler.toList.map (.subscribe · true))
  | .setPrimary id => some ({ b with primaryId := id }, [])
  | .setQueueLimit limit => some ({ b with queueLimit := limit }, [])
  | .drain => if b.queue = [] && !b.dispatching || !b.running then some (b, []) else none
  | .initialise loaded => some ({ b with initialized := b.initialized || loaded }, [])
  | .shutdown =>
    if b.initialized then
      some ({ b with initialized := false }, [
        .publish { type := .clientShutdown, message := ascii "client shutdown" }, .drain, .stop])
    else some (b, [])
  | .wait =>
    match b.queue with
    | p :: queue => some (b.take p queue)
    | [] => if b.running then none else some (b, [])
  | .handle p s => some ({ b with delivered := b.delivered ++ [(s.id, p.number)] }, [.handling p s])
  | .handling p _ =>
    match outcome with
    | .returns     => some (b, [])
    | .throws what => some (b, [.publish (handlerThrew p.event what)])
  | .finish => some ({ b with dispatching := false }, [.wait])

def steps : BusCall → List BusStep
  | .publish e => [.publish e]
  | .start => [.start]
  | .stop => [.stop]
  | .subscribe handler => handler.toList.map (.subscribe · false)
  | .unsubscribe id => [.unsubscribe id]
  | .setQueueLimit limit => [.setQueueLimit limit]
  | .initialise limit handler loaded =>
    [.setQueueLimit limit, .replacePrimary handler, .initialise loaded]
  | .shutdown => [.shutdown]

inductive Action where
  -- A thread calls the bus, or the handler does that a dispatcher is in.
  | call (call : BusCall)
  | nest (d : Nat) (call : BusCall)
  | resume (k : Nat)
  | dispatch (d : Nat) (outcome : Outcome)
  deriving DecidableEq, Repr

def inHandler : List BusStep → Bool
  | .handling _ _ :: _ => true
  | _ => false

def advance (b : EventBus) (outcome : Outcome) : List BusStep → Option (EventBus × List BusStep)
  | [] => none
  | s :: rest => (b.step outcome s).map fun (b, new) => (b, new ++ rest)

def next (b : EventBus) : Action → Option EventBus
  | .call call => some { b with calls := b.calls ++ [steps call] }
  | .nest d call =>
    (b.dispatchers[d]?).bind fun program =>
      if inHandler program then
        some { b with dispatchers := b.dispatchers.set d (steps call ++ program) }
      else none
  | .resume k =>
    (b.calls[k]?).bind fun program => (b.advance .returns program).map fun (b, program) =>
      { b with calls := b.calls.set k program }
  | .dispatch d outcome =>
    (b.dispatchers[d]?).bind fun program => (b.advance outcome program).map fun (b, program) =>
      { b with dispatchers := b.dispatchers.set d program }

def Runs (P : EventBus → Action → Prop) : EventBus → EventBus → Prop :=
  Reach (fun b a b' => b.next a = some b') P

end EventBus

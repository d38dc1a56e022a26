import LibAdb.Execution.Loop

-- The events of `fdevent.h`.
structure FdeEvents extends FdEvents where
  timeout : Bool := false
  deriving DecidableEq, Repr

-- An `fdevent` with the number that `fdevent_id_` gave it. Times are in milliseconds.
structure Fdevent where
  id         : Nat
  fd         : Nat
  state      : FdEvents := {}
  timeout    : Option Nat := none
  lastActive : Nat := 0
  deriving DecidableEq, Repr

-- An event of a batch. The loop has only the address; `id` is the fdevent that was there when the
-- kernel reported the event.
structure FdeventEvent where
  fde    : Nat
  events : FdeEvents
  id     : Nat
  deriving DecidableEq, Repr

-- An event that was handed to the callback of an fdevent.
structure Delivery where
  event    : FdeventEvent
  receiver : Nat
  deriving DecidableEq, Repr

-- `nodes` are the fdevents of `installed_fdevents_` by their address, and `fds` the keys of that map
-- with the addresses.
structure FdeventContext where
  nodes      : Nat → Option Fdevent := fun _ => none
  fds        : List (Nat × Nat) := []
  fdeventSet : List Nat := []
  fdeventId  : Nat := 0
  batch      : List FdeventEvent := []
  log        : List Delivery := []

namespace FdeventContext

def put (s : FdeventContext) (fde : Nat) (node : Option Fdevent) : FdeventContext :=
  { s with nodes := fun a => if a = fde then node else s.nodes a }

-- The map has no entry for the fd yet, or the `CHECK` fails. The new node is at the address `fde`.
def create (s : FdeventContext) (fde fd : Nat) : Option FdeventContext :=
  if (s.nodes fde).isNone ∧ fd ∉ s.fds.map (·.1) then
    some { s.put fde (some { id := s.fdeventId, fd }) with
      fds        := (fd, fde) :: s.fds
      fdeventSet := fde :: s.fdeventSet
      fdeventId  := s.fdeventId + 1 }
  else none

-- The fd is returned.
def destroy (s : FdeventContext) (fde : Nat) : Option (Nat × FdeventContext) :=
  (s.nodes fde).map fun node => (node.fd, { s.put fde none with
    fds        := s.fds.filter (·.1 != node.fd)
    fdeventSet := s.fdeventSet.filter (· != fde) })

def modify (s : FdeventContext) (fde : Nat) (f : Fdevent → Fdevent) : Option FdeventContext :=
  (s.nodes fde).map fun node => s.put fde (some (f node))

def set (s : FdeventContext) (fde : Nat) (events : FdEvents) : Option FdeventContext :=
  s.modify fde ({ · with state := events })

def setTimeout (s : FdeventContext) (fde : Nat) (timeout : Option Nat) (now : Nat) :
    Option FdeventContext :=
  s.modify fde ({ · with timeout, lastActive := now })

-- `deferred_close(fdevent_release(fde))`: the fd gets a new fdevent, at the address `new`.
def deferredClose (s : FdeventContext) (fde new now : Nat) : Option FdeventContext := do
  let (fd, s) ← s.destroy fde
  let s ← s.create new fd
  let s ← s.set new { read := true }
  s.setTimeout new (some 1000) now

-- The kernel reports an event that was not asked for only if it is a hang-up.
def canReport (node : Fdevent) (e : EpollEvents) : Bool :=
  (!e.input || node.state.read) && (!e.output || node.state.write)

-- The events that `epoll_wait` has reported, with the `last_active` of their fdevents.
def report (s : FdeventContext) (now : Nat) :
    List (Nat × EpollEvents) → Option (FdeventContext × List FdeventEvent)
  | [] => some (s, [])
  | (fde, e) :: rest => do
    let node ← s.nodes fde
    if canReport node e then
      let (s, events) ← (s.put fde (some { node with lastActive := now })).report now rest
      return (s, { fde, events := { e.toFdEvents with }, id := node.id } :: events)
    else none

-- The fdevents without an event whose time is up.
def expire (s : FdeventContext) (now : Nat) (reported : List Nat) :
    List Nat → FdeventContext × List FdeventEvent
  | [] => (s, [])
  | fde :: rest =>
    match s.nodes fde with
    | none => s.expire now reported rest
    | some node =>
      if fde ∉ reported ∧ node.timeout.any (node.lastActive + · < now) then
        let (s, events) :=
          (s.put fde (some { node with lastActive := now })).expire now reported rest
        (s, { fde, events := { timeout := true }, id := node.id } :: events)
      else s.expire now reported rest

def poll (s : FdeventContext) (now : Nat) (reported : List (Nat × EpollEvents)) :
    Option FdeventContext := do
  let (s, ready) ← s.report now reported
  let (s, expired) := s.expire now (ready.map (·.fde)) (s.fds.map (·.2))
  return { s with batch := ready ++ expired }

-- The next event of `HandleEvents`. What the callback does to the fdevents are steps of their own.
def handleEvent (s : FdeventContext) : Option FdeventContext :=
  match s.batch with
  | [] => none
  | event :: batch =>
    let s := { s with batch }
    if event.fde ∈ s.fdeventSet then
      (s.nodes event.fde).map fun node => { s with log := s.log ++ [⟨event, node.id⟩] }
    else some s

inductive Action where
  | create (fde fd : Nat)
  | destroy (fde : Nat)
  | set (fde : Nat) (events : FdEvents)
  | setTimeout (fde : Nat) (timeout : Option Nat) (now : Nat)
  | deferredClose (fde new now : Nat)
  | poll (now : Nat) (reported : List (Nat × EpollEvents))
  | handleEvent
  deriving DecidableEq, Repr

-- Callbacks and tasks create and destroy fdevents at any time. The loop polls again when the batch was
-- handled.
def step (s : FdeventContext) : Action → Option FdeventContext
  | .create fde fd => s.create fde fd
  | .destroy fde => (s.destroy fde).map (·.2)
  | .set fde events => s.set fde events
  | .setTimeout fde timeout now => s.setTimeout fde timeout now
  | .deferredClose fde new now => s.deferredClose fde new now
  | .poll now reported => if s.batch = [] then s.poll now reported else none
  | .handleEvent => s.handleEvent

def Runs (P : FdeventContext → Action → Prop) : FdeventContext → FdeventContext → Prop :=
  Reach (fun s a s' => s.step a = some s') P

def Reachable (P : FdeventContext → Action → Prop) (s : FdeventContext) : Prop :=
  Runs P {} s

end FdeventContext

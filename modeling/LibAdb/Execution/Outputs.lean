import LibAdb.Library.Reach
import LibAdb.Objects.Install
import Mathlib.Logic.Function.Basic

-- Where a call of `run_shell` stands with its session.
inductive ShellStage where
  -- A session of another service, which has no output target.
  | service
  | created
  | targeted
  | running
  | aborting
  -- The session has finished, was aborted or could not be started.
  | ending
  | cleared
  | returned
  deriving DecidableEq, Repr

-- `chunks` are what the reader thread of the session has passed on, `left` and `cut` how many of
-- them there were when the wait was over and when the target was removed.
structure ShellRun where
  id       : UInt32
  capture  : Bool
  point    : ShellStage
  reading  : Bool := false
  promised : Bool := false
  finished : Bool := false
  output   : Bytes := []
  chunks   : List Bytes := []
  left     : Option Nat := none
  cut      : Option Nat := none
  deriving DecidableEq, Repr

namespace ShellRun

-- Between `set_output_target` and `clear_output_target`.
def targeted (c : ShellRun) : Bool :=
  c.point = .targeted || c.point = .running || c.point = .aborting || c.point = .ending

inductive Step where
  | target
  | start (started : Bool)
  | close
  | finish
  | abort
  | aborted
  | clear
  | back
  deriving DecidableEq, Repr

def next (c : ShellRun) : Step → Option ShellRun
  | .target => if c.point = .created then some { c with point := .targeted } else none
  | .start started =>
    if c.point = .service && !c.promised then some { c with reading := started }
    else if c.point ≠ .targeted then none
    else if started then some { c with point := .running, reading := true }
    else some { c with point := .ending, left := some c.chunks.length }
  -- The reader is through with its stream, which `abort` and `AdbDevice::close` end as well.
  | .close => if c.reading then some { c with reading := false, promised := true } else none
  | .finish =>
    if c.point = .running && c.promised then
      some { c with point := .ending, finished := true, left := some c.chunks.length }
    else none
  | .abort =>
    if c.point = .running then some { c with point := .aborting, left := some c.chunks.length }
    else none
  | .aborted => if c.point = .aborting then some { c with point := .ending } else none
  | .clear =>
    if c.point = .ending then some { c with point := .cleared, cut := some c.chunks.length }
    else none
  | .back => if c.point = .cleared then some { c with point := .returned } else none

end ShellRun

-- The result whose `output` is written, if it is captured.
structure OutputTarget where
  buffer : Option Nat
  deriving DecidableEq, Repr

-- The sessions of a device, by the order in which they were created, and the targets of its listener.
structure Outputs where
  nextId  : UInt32 := 1
  created : Nat := 0
  outputs : UInt32 → Option OutputTarget := fun _ => none
  call    : Nat → Option ShellRun := fun _ => none

namespace Outputs

inductive Event where
  | createSession (shell capture : Bool)
  | step (i : Nat) (step : ShellRun.Step)
  | deliver (i : Nat) (data : Bytes)
  deriving DecidableEq, Repr

def createSession (s : Outputs) (shell capture : Bool) : Outputs :=
  { s with
    nextId := s.nextId + 1, created := s.created + 1
    call := Function.update s.call s.created (some {
      id := s.nextId, capture := shell && capture, point := if shell then .created else .service }) }

def target (c : ShellRun) (i : Nat) : OutputTarget :=
  ⟨if c.capture then some i else none⟩

def step (s : Outputs) (i : Nat) (c c' : ShellRun) : ShellRun.Step → Outputs
  | .target => { s with
      call := Function.update s.call i (some c')
      outputs := Function.update s.outputs c.id (some (target c i)) }
  | .clear => { s with
      call := Function.update s.call i (some c')
      outputs := Function.update s.outputs c.id none }
  | _ => { s with call := Function.update s.call i (some c') }

def onShellData (s : Outputs) (id : UInt32) (data : Bytes) : Outputs :=
  match (s.outputs id).bind (·.buffer) with
  | some j => { s with call := Function.update s.call j ((s.call j).map fun c =>
      { c with output := c.output ++ data }) }
  | none => s

def deliver (s : Outputs) (i : Nat) (c : ShellRun) (data : Bytes) : Outputs :=
  let s := s.onShellData c.id data
  { s with call := Function.update s.call i ((s.call i).map fun c =>
      { c with chunks := c.chunks ++ [data] }) }

def next (s : Outputs) : Event → Option Outputs
  | .createSession shell capture => some (s.createSession shell capture)
  | .step i step => (s.call i).bind fun c => (c.next step).map fun c' => s.step i c c' step
  | .deliver i data =>
    (s.call i).bind fun c => if c.reading then some (s.deliver i c data) else none

def Runs : Outputs → Outputs → Prop :=
  Reach (fun s a s' => s.next a = some s') fun _ _ => True

end Outputs

import LibAdb.Execution.Operation
import Mathlib.Order.Lattice

-- A reading of the steady clock, in nanoseconds.
structure Reading where
  ns     : Int
  nonneg : 0 ≤ ns
  lt     : ns < 0x8000000000000000

-- What is left of a number in 64 bits with a sign.
def wrap (n : Int) : Int :=
  (n + 0x8000000000000000) % 0x10000000000000000 - 0x8000000000000000

-- The conversion of milliseconds to nanoseconds, which takes place in the latter's type.
def toNs (timeout : Int) : Int :=
  wrap (timeout * 1000000)

-- `duration_cast<ms>(deadline - now)` for the deadline `started + timeout`.
def timeLeft (started : Reading) (timeout : Int) (now : Reading) : Int :=
  (wrap (wrap (started.ns + toNs timeout) - now.ns)).tdiv 1000000

-- `expired` with the readings of the start, of the last progress and of its own.
def TransferDeadline.expired (timeout : TransferTimeout) (start lastProgress now : Reading) :
    Option Limit :=
  if 0 < timeout.total ∧ toNs timeout.total ≤ now.ns - start.ns then some .total
  else if 0 < timeout.stall ∧ toNs timeout.stall ≤ now.ns - lastProgress.ns then some .stall
  else none

-- Whether `wait_for` gives up at a reading, if nothing has finished by then.
def Operation.expired (timeout : Int) (start now : Reading) : Prop :=
  wrap (start.ns + toNs timeout) ≤ now.ns

-- When `BatchOperation::wait` gives up at an operation that does not finish: it looks at the clock,
-- begins to wait and looks again.
def BatchOperation.expired (timeout : Int) (start look begun now : Reading) : Option Reading :=
  if timeLeft start timeout look ≤ 0 then some look
  else if wrap (begun.ns + toNs (timeLeft start timeout look)) ≤ now.ns then some now
  else none

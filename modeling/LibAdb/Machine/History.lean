import LibAdb.Objects.Looper

-- What the log says about one local socket. The outgoing direction is counted from the `OPEN` that
-- the host sent for the socket, if it sent one.
structure History where
  opened       : Bool := false
  read         : Bytes := []
  sent         : Bytes := []
  acks         : List (Option Int) := []
  -- The number of `WRTE` packets so far, whether an `OKAY`, or the device's own `OPEN`, has come since
  -- the last one, and whether the stream is the answer to such an `OPEN`.
  writes       : Nat := 0
  permitted    : Bool := false
  accepted     : Bool := false
  -- The payloads put into the queue, their number, the `OKAY` packets sent for them, and the bytes
  -- written to the fd.
  received     : Bytes := []
  arrivals     : Nat := 0
  okays        : List Bytes := []
  written      : Bytes := []
  writeFailed  : Bool := false
  remoteClosed : Bool := false
  destroyed    : Bool := false
  deriving DecidableEq, Repr

namespace History

def send (h : History) (p : Apacket) : History :=
  match p.kind with
  | some .open => { h with opened := true, read := [], sent := [], acks := [], permitted := false }
  | some .wrte =>
    { h with sent := h.sent ++ p.payload, writes := h.writes + 1, permitted := false }
  | some .okay => { h with okays := h.okays ++ [p.payload] }
  | _          => h

def subject : Effect → Option Ref
  | .sent src _ _ => src
  | .read r _ | .enqueued r _ | .wrote r _ | .writeFailed r | .acked r _ | .accepted r
  | .closedByRemote r | .status r _ | .destroyed r => some r

def record (h : History) : Effect → History
  | .sent _ _ p       => h.send p
  | .read _ bs        => { h with read := h.read ++ bs }
  | .enqueued _ bs    => { h with received := h.received ++ bs, arrivals := h.arrivals + 1 }
  | .wrote _ bs       => { h with written := h.written ++ bs }
  | .writeFailed _    => { h with writeFailed := true }
  | .acked _ n        => { h with acks := h.acks ++ [n], permitted := true }
  | .accepted _       => { h with permitted := true, accepted := true }
  | .closedByRemote _ => { h with remoteClosed := true }
  | .status _ _       => h
  | .destroyed _      => { h with destroyed := true }

def step (r : Ref) (h : History) (e : Effect) : History :=
  if subject e = some r then h.record e else h

def steps (r : Ref) (h : History) (es : List Effect) : History :=
  es.foldl (step r) h

@[simp]
theorem steps_nil : steps r h [] = h :=
  rfl

@[simp]
theorem steps_cons : steps r h (e :: es) = steps r (step r h e) es :=
  rfl

theorem steps_append : steps r h (es₁ ++ es₂) = steps r (steps r h es₁) es₂ :=
  List.foldl_append

theorem step_of_ne (h : subject e ≠ some r) : step r st e = st := by
  simp [step, h]

theorem step_of_eq (h : subject e = some r) : step r st e = st.record e := by
  simp [step, h]

-- Effects that say nothing about the data of a stream: packets that are not sent for a local socket,
-- `CLSE` packets, and the status messages to a client.
def Neutral : Effect → Prop
  | .sent src _ p => src = none ∨ p.kind = some .clse
  | .status _ _   => True
  | _             => False

theorem step_of_neutral (h : Neutral e) : step r st e = st := by
  cases e <;> simp_all [Neutral, step, subject, record]
  case sent src t p =>
    rcases h with h | h <;> simp [h, send]

theorem steps_of_neutral (h : ∀ e ∈ es, Neutral e) : steps r st es = st := by
  induction es
  case nil => rfl
  case cons e es ih =>
    have he : step r st e = st := step_of_neutral (h e List.mem_cons_self)
    rw [steps_cons, he]
    exact ih fun e' hm => h e' (List.mem_cons_of_mem _ hm)

theorem step_of_okay (h : p.kind = some .okay) :
    step r st (.sent (some r) t p) = { st with okays := st.okays ++ [p.payload] } := by
  simp [step, subject, record, send, h]

end History

namespace Looper

def history (s : Looper) (r : Ref) : History :=
  History.steps r {} s.log

@[simp]
theorem history_emit {s : Looper} : (s.emit es).history r = History.steps r (s.history r) es := by
  simp [history, emit, History.steps_append]

end Looper

import LibAdb.Execution.Operation
import Mathlib.Data.List.Induction
import Mathlib.Logic.Function.Iterate

-- For a second or more, no progress was reported.
def Observation.Quiet (o : Observation) : Prop :=
  o.transferring ∧ 1000 ≤ o.now - o.lastProgress
  deriving Decidable

namespace InstallMonitor

variable {timeout : InstallTimeout} {m : InstallMonitor} {o : Observation}

theorem look_commit_iff :
    (look timeout m o).1.phase = .commit ↔ m.phase = .commit ∨ o.Quiet := by
  simp only [look, Observation.Quiet]
  grind

theorem look_stalled_iff (hs : 0 < timeout.transfer.stall)
    (h : timeout.transfer.stall ≤ o.now - o.lastProgress) :
    (look timeout m o).2 = some .transferStalled ↔ o.transferring ∧ m.phase ≠ .commit ∧ ¬o.Quiet ∧
      ¬(0 < timeout.transfer.total ∧ timeout.transfer.total ≤ o.now) := by
  simp only [look, Observation.Quiet]
  grind

end InstallMonitor

theorem GiveUp.status_eq_stallTimeout {g : GiveUp} :
    g.status = .stallTimeout ↔ g = .transferStalled := by
  cases g <;> simp only [status] <;> grind

namespace InstallAttempt

variable {timeout : InstallTimeout} {a : InstallAttempt} {flag : CancelFlag} {env : Env}
  {before : List (CancelFlag × Env)}

def givesUp (a : InstallAttempt) (status : Status) : Prop :=
  ∃ g, a.point = .finished (some g) ∧ g.status = status

-- A round of the monitor, with what it finds while the worker is busy.
def poll (timeout : InstallTimeout) (a : InstallAttempt) (x : CancelFlag × Env) : InstallAttempt :=
  (next timeout x.1 x.2)^[4] a

def polls (timeout : InstallTimeout) (l : List (CancelFlag × Env)) : InstallAttempt :=
  l.foldl (poll timeout) {}

theorem poll_finished (h : a.point = .finished g) : a.poll timeout x = a := by
  have fixed : a.next timeout x.1 x.2 = a := by simp only [next, h]
  simp only [poll, Function.iterate_succ_apply, Function.iterate_zero_apply, fixed]

theorem poll_triggered (hp : a.point = .loop) (hw : a.worker = none) (hf : flag.triggered) :
    a.poll timeout (flag, env) = { a with
      point := .finished (some (.canceled flag.connectionClosed a.monitor.phase)) } := by
  simp [poll, next, hp, hw, hf]

theorem poll_look (hp : a.point = .loop) (hw : a.worker = none) (hf : ¬flag.triggered) :
    a.poll timeout (flag, env) = { a with
      monitor := (a.monitor.look timeout env.observation).1
      point := if (a.monitor.look timeout env.observation).2.isSome then
        .finished (a.monitor.look timeout env.observation).2 else .loop } := by
  simp [poll, next, hp, hw, hf]

theorem polls_concat : polls timeout (before ++ [x]) = (polls timeout before).poll timeout x :=
  List.foldl_concat ..

theorem polls_loop (timeout : InstallTimeout) (before : List (CancelFlag × Env)) :
    (polls timeout before).worker = none ∧
    ((∃ g, (polls timeout before).point = .finished g) ∨ (polls timeout before).point = .loop ∧
      ((polls timeout before).monitor.phase = .commit ↔ ∃ x ∈ before, x.2.observation.Quiet)) := by
  induction before using List.reverseRec
  case nil => exact ⟨rfl, .inr ⟨rfl, by simp [polls]⟩⟩
  case append_singleton before x hi =>
    obtain ⟨flag, env⟩ := x
    obtain ⟨hw, ⟨g, hg⟩ | ⟨hp, hc⟩⟩ := hi
    · rw [polls_concat, poll_finished hg]
      exact ⟨hw, .inl ⟨g, hg⟩⟩
    · by_cases hf : flag.triggered
      · rw [polls_concat, poll_triggered hp hw hf]
        exact ⟨hw, .inl ⟨_, rfl⟩⟩
      · rw [polls_concat, poll_look hp hw hf]
        refine ⟨hw, ?_⟩
        split
        · exact .inl ⟨_, rfl⟩
        · refine .inr ⟨rfl, ?_⟩
          simp [InstallMonitor.look_commit_iff, hc, or_and_right, exists_or]

-- The monitor takes a second without progress for the commit.
theorem stall_detected_iff (before : List (CancelFlag × Env)) (hs : 0 < timeout.transfer.stall)
    (hp : (polls timeout before).point = .loop)
    (h : timeout.transfer.stall ≤ env.observation.now - env.observation.lastProgress) :
    (polls timeout (before ++ [(flag, env)])).givesUp .stallTimeout ↔
    flag.triggered = false ∧ env.observation.transferring ∧ ¬env.observation.Quiet ∧
      (∀ x ∈ before, ¬x.2.observation.Quiet) ∧
      ¬(0 < timeout.transfer.total ∧ timeout.transfer.total ≤ env.observation.now) := by
  obtain ⟨hw, ⟨g, hg⟩ | ⟨-, hc⟩⟩ := polls_loop timeout before
  · cases hg.symm.trans hp
  · by_cases hf : flag.triggered
    case pos =>
      rw [polls_concat, poll_triggered hp hw hf]
      simp [givesUp, GiveUp.status_eq_stallTimeout, hf]
    case neg =>
      have finished : ∀ g : Option GiveUp,
          (if g.isSome then MonitorPoint.finished g else .loop) = .finished (some .transferStalled) ↔
            g = some .transferStalled := by
        intro g
        cases g <;> simp
      rw [polls_concat, poll_look hp hw hf]
      simp only [givesUp, GiveUp.status_eq_stallTimeout, exists_eq_right, finished,
        InstallMonitor.look_stalled_iff hs h, ne_eq, hc]
      grind

-- Polls of a transfer that has reported progress once.
def samplePolls (times : List Nat) : List (CancelFlag × Env) :=
  times.map fun now => ({}, { observation := { now, transferring := true, lastProgress := 100 } })

theorem stall_detected_half_second :
    (polls { transfer := { stall := 500 } } (samplePolls [100, 200, 500])).point = .loop ∧
    (polls { transfer := { stall := 500 } } (samplePolls [100, 200, 500, 700])).givesUp
      .stallTimeout := by
  have going : (polls { transfer := { stall := 500 } } (samplePolls [100, 200, 500])).point = .loop := by
    decide +kernel
  exact ⟨going, (stall_detected_iff (samplePolls [100, 200, 500]) (by decide) going (by decide)).mpr
    ⟨rfl, rfl, by decide, by decide, by decide⟩⟩

-- With the limits as they are by default, a transfer that stops after its first report is never
-- given up because it has stalled.
theorem stall_taken_for_commit :
    let silent := (List.range 320).map fun k => (({} : CancelFlag), ({ observation :=
      { now := 100 * k + 100, transferring := true, lastProgress := 50 } } : Env))
    (polls {} silent).point = .loop ∧ ∃ x ∈ silent.getLast?,
      30000 ≤ x.2.observation.now - x.2.observation.lastProgress := by
  decide +kernel

end InstallAttempt

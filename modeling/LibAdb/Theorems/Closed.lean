import LibAdb.Machine.Shell

namespace Operation

variable {o o' : Operation} {j : Job} {f : CancelFlag}

def isWatching : MonitorPoint → Bool
  | .loop | .slept | .check => true
  | _ => false

def attends : Point → Bool
  | .transfer (.run reason) | .transfer (.finished reason) => reason = .ok
  | .shell .check | .shell .wait | .shell (.exited _) => true
  | .install (.attempt _ a) => a.worker.isNone && isWatching a.point
  | _ => false

-- An operation is marked where it attends to its flag, and from then on the worker of an
-- installation goes on until the monitor has given up.
def isAttended (o : Operation) : Action → Bool
  | .mark     => o.flag.connectionClosed || attends o.point
  | .work _ _ => !o.flag.connectionClosed || hasGivenUp o.point
  | _         => true

-- Where a marked operation stands.
inductive Closes : Point → Prop
  | run (h : reason = .ok ∨ reason = .connectionClosed) : Closes (.transfer (.run reason))
  | seen : Closes (.transfer .seen)
  | finished (h : reason = .ok ∨ reason = .connectionClosed) : Closes (.transfer (.finished reason))
  | cancel : Closes (.transfer .cancel)
  | check : Closes (.shell .check)
  | wait : Closes (.shell .wait)
  | exited : Closes (.shell (.exited code))
  | abort : Closes (.shell (.abort true))
  | canceled : Closes (.shell .cancel)
  | closed (h : r.status = .connectionClosed) : Closes (.shell (.done r))
  | watches {a : InstallAttempt} (hw : a.worker = none)
    (h : isWatching a.point ∨ a.point = .cancel) : Closes (.install (.attempt trial a))
  | givenUp {a : InstallAttempt} (h : a.point = .finished (some (.canceled true phase))) :
    Closes (.install (.attempt trial a))
  | downgrade (h : r.status = .connectionClosed) : Closes (.install (.downgrade r))
  | conflict (h : r.status = .connectionClosed) : Closes (.install (.conflict r))
  | finish (h : r.status = .ok ∨ r.status = .connectionClosed) : Closes (.finish r)
  | done (h : r.status = .ok ∨ r.status = .connectionClosed) : Closes (.done r)

theorem Closes.of_attends (h : attends p) : Closes p := by
  unfold attends at h
  split at h
  case h_1 => exact .run (.inl (of_decide_eq_true h))
  case h_2 => exact .finished (.inl (of_decide_eq_true h))
  case h_3 => exact .check
  case h_4 => exact .wait
  case h_5 => exact .exited
  case h_6 =>
    simp only [Bool.and_eq_true, Option.isNone_iff_eq_none] at h
    exact .watches h.left (.inl h.right)
  case h_7 => cases h

theorem modifyInner_of_closes (h : Closes p) : modifyInner g p = p := by
  cases h <;> rfl

theorem Closes.transfer (h : Closes (.transfer p)) (hf : f.connectionClosed) :
    Closes (nextTransfer j f env p) := by
  have triggered : f.triggered := by simp [CancelFlag.triggered, hf]
  have status : f.status = .connectionClosed := by simp [CancelFlag.status, hf]
  cases h
  case run hr =>
    simp only [nextTransfer]
    split
    · exact .finish (.inl rfl)
    · exact .finished hr
    · rw [triggered]
      split
      · exact .run hr
      · exact .seen
  case seen =>
    simp only [nextTransfer, status]
    exact .run (.inr rfl)
  case finished hr =>
    simp only [nextTransfer]
    rcases hr with rfl | rfl
    · rw [if_neg (by simp), if_pos triggered]
      exact .cancel
    · rw [if_pos (by simp)]
      exact .finish (.inr rfl)
  case cancel =>
    simp only [nextTransfer, status]
    exact .finish (.inr rfl)

theorem Closes.shell {point point' : ShellPoint} (h : Closes (.shell point))
    (hf : f.connectionClosed) (hm : point.Moves f x point' x') : Closes (.shell point') := by
  have triggered : f.triggered := by simp [CancelFlag.triggered, hf]
  have status : f.status = .connectionClosed := by simp [CancelFlag.status, hf]
  cases hm
  case canceled => exact .abort
  case check hn | exited hn _ => exact absurd triggered (Bool.eq_false_iff.mp hn)
  case ready => exact .exited
  case again => exact .check
  case interrupted | abort => exact .canceled
  case cancel hr => exact .closed (hr.trans status)
  all_goals cases h

theorem uninstallResult_status (h : r.status = .connectionClosed) :
    (Device.uninstallResult r).status = .connectionClosed := by
  simp [Device.uninstallResult, h]

theorem shellResult_status (h : r.status = .connectionClosed) :
    (shellResult j r).status = .connectionClosed := by
  cases j
  case uninstall => exact uninstallResult_status h
  all_goals exact h

theorem Closes.attempt {a : InstallAttempt} (h : Closes (.install (.attempt trial a)))
    (hf : f.connectionClosed) (hr : a.result = none) :
    Closes (.install (.attempt trial (a.next timeout f env))) := by
  have triggered : f.triggered := by simp [CancelFlag.triggered, hf]
  cases h
  case watches hw h =>
    obtain ⟨point, monitor, worker⟩ := a
    cases hw
    cases point
    case loop | slept => exact .watches rfl (.inl rfl)
    case check =>
      simp only [InstallAttempt.next, triggered, if_true]
      exact .watches rfl (.inr rfl)
    case cancel =>
      simp only [InstallAttempt.next, hf]
      exact .givenUp rfl
    case limits | finished => simp [isWatching] at h
  case givenUp h =>
    simp only [InstallAttempt.next, h]
    exact .givenUp h

theorem Closes.afterAttempt {a : InstallAttempt} (h : Closes (.install (.attempt trial a)))
    (hr : a.result = some r) : Closes (afterAttempt r trial) := by
  obtain ⟨point, monitor, worker⟩ := a
  have closed : r.status = .connectionClosed := by
    cases h
    case watches hw _ =>
      cases hw
      simp [InstallAttempt.result] at hr
    case givenUp h =>
      cases h
      cases worker
      case none => cases hr
      case some =>
        cases hr
        rfl
  cases trial
  case first => exact .downgrade closed
  case retry => exact .conflict closed
  case reinstall => exact .finish (.inr closed)

theorem Closes.install {point : InstallPoint} (h : Closes (.install point)) (hf : f.connectionClosed) :
    Closes (nextInstall options timeout removal f env x point).1 := by
  cases point
  case arguments | prepare | removing => cases h
  case attempt trial a =>
    simp only [nextInstall]
    split
    case h_1 hr => exact h.afterAttempt hr
    case h_2 hr => exact h.attempt hf hr
  case downgrade r =>
    cases h
    case downgrade h =>
      have : Device.retriesDowngrade options r = false := by simp [Device.retriesDowngrade, h]
      simp only [nextInstall, this]
      exact .conflict h
  case conflict r =>
    cases h
    case conflict h =>
      have : Device.reinstallsConflict options r = false := by simp [Device.reinstallsConflict, h]
      simp only [nextInstall, nextConflict, this]
      exact .finish (.inr h)

theorem Closes.resume (h : Closes o.point) (hf : o.flag.connectionClosed) :
    Closes (o.resume env).1 := by
  obtain ⟨j, f, p, x⟩ := o
  cases p
  case online | file => cases h
  case transfer => exact h.transfer hf
  case shell point =>
    by_cases hd : ∃ r, point = .done r
    case pos =>
      obtain ⟨r, rfl⟩ := hd
      cases h
      case closed h => exact .finish (.inr (shellResult_status h))
    case neg =>
      have hd r : point ≠ .done r := fun hr => hd ⟨r, hr⟩
      simp only [Operation.resume, nextShell_eq hd]
      exact h.shell hf (ShellPoint.next_moves hd)
  case install point =>
    cases j
    case install => exact h.install hf
    all_goals exact h
  case finish =>
    cases h
    case finish h => exact .done h
  case done => exact h

theorem Closes.endWorker (h : Closes p) (hg : hasGivenUp p) (hw : endWorker ok output p = some p') :
    Closes p' := by
  cases h
  case watches a _ h =>
    obtain ⟨point, monitor, worker⟩ := a
    cases point
    case finished => simp [isWatching] at h
    all_goals cases hg
  case givenUp h =>
    simp only [Operation.endWorker, Option.ite_none_left_eq_some, Option.some.injEq] at hw
    obtain ⟨-, rfl⟩ := hw
    exact .givenUp h
  all_goals cases hg

theorem next_closes (h : o.flag.connectionClosed → Closes o.point) (hp : o.isAttended a)
    (hn : o.next a = some o') (hc : o'.flag.connectionClosed) : Closes o'.point := by
  cases a
  case mark =>
    simp only [next, Option.ite_none_left_eq_some, Option.some.injEq] at hn
    obtain ⟨-, rfl⟩ := hn
    simp only [isAttended, Bool.or_eq_true] at hp
    have := hp.elim h .of_attends
    rwa [modifyInner_of_closes this]
  case cancel =>
    simp only [next, Option.ite_none_left_eq_some, Option.some.injEq] at hn
    obtain ⟨-, rfl⟩ := hn
    rw [modifyInner_of_closes (h hc)]
    exact h hc
  case resume =>
    simp only [next, Option.ite_none_left_eq_some, Option.some.injEq] at hn
    obtain ⟨-, rfl⟩ := hn
    exact (h hc).resume hc
  case work =>
    simp only [next, Option.map_eq_some_iff] at hn
    obtain ⟨p, hw, rfl⟩ := hn
    exact (h hc).endWorker (by simpa [isAttended, show o.flag.connectionClosed from hc] using hp) hw
  case receive =>
    simp only [next, Option.map_eq_some_iff] at hn
    obtain ⟨s, -, rfl⟩ := hn
    exact h hc
  case hangup =>
    simp only [next, Option.map_eq_some_iff] at hn
    obtain ⟨s, -, rfl⟩ := hn
    exact h hc
  case read =>
    simp only [next, Option.map_eq_some_iff] at hn
    obtain ⟨s, -, rfl⟩ := hn
    exact h hc

theorem marked_operation_reports_close (h : Runs (fun o a => o.isAttended a) (start j) o)
    (hm : o.flag.connectionClosed) (hd : o.point = .done r) :
    r.status = .ok ∨ r.status = .connectionClosed := by
  have closes := h.invariant (I := fun o => o.flag.connectionClosed → Closes o.point)
    (fun _ _ _ hp hn h => next_closes h hp hn) (by cases j <;> nofun) hm
  rw [hd] at closes
  cases closes
  assumption

-- The monitor of an installation sees the mark and gives up, and then the worker fails.
theorem marked_operation_reports_close_of_install :
    ∃ o r, Runs (fun o a => o.isAttended a) (start (.install {} {} 0)) o ∧
      o.flag.connectionClosed ∧ o.point = .done r ∧ r.exitCode = -1 ∧
      (r.status = .ok ∨ r.status = .connectionClosed) := by
  have ⟨o, h, closed, done⟩ : ∃ o, Runs (fun o a => o.isAttended a) (start (.install {} {} 0)) o ∧
      o.flag.connectionClosed ∧ o.point = .done {
        status := .connectionClosed, exitCode := -1, error := ascii "install canceled",
        phase := .createSession } :=
    Reach.exists_of_guarded (fun _ _ hq => hq) (List.flatten [List.replicate 3 (.resume {}), [.mark],
      List.replicate 4 (.resume {}), [.work false []], List.replicate 4 (.resume {})])
      (by decide +kernel)
  exact ⟨o, _, h, closed, done, rfl, marked_operation_reports_close h closed done⟩

def reports (status : Status) : Point → Bool
  | .done r => r.status = status
  | _       => false

-- An operation that was neither cancelled nor timed out is marked, and it reports another status.
structure Misreports (job : Job) (status : Status) (o o' o'' : Operation) : Prop where
  runs     : Runs (fun _ _ => True) (start job) o
  unmarked : o.flag = {}
  marked   : o.next .mark = some o'
  later    : Runs (fun _ _ => True) o' o''
  reports  : reports status o''.point

theorem exists_misreports {job : Job} {status : Status} (before after : List Action)
    (h : (exec next (start job) before).any fun o => o.flag == {} && (o.next .mark).any fun o' =>
      (exec next o' after).any (reports status ·.point)) :
    ∃ o o' o'', Misreports job status o o' o'' := by
  rw [Option.any_eq_true] at h
  have ⟨o, ho, h⟩ := h
  simp only [Bool.and_eq_true, beq_iff_eq, Option.any_eq_true] at h
  have ⟨unmarked, o', marked, o'', later, reports⟩ := h
  exact ⟨o, o', o'', .of_exec ho, unmarked, marked, .of_exec later, reports⟩

-- The worker of an installation fails before the monitor has looked at the flag; the uninstallation
-- before a reinstall is aborted; the session of an uninstallation cannot be started any more; the
-- check of the connection comes behind the mark; and the transfer had failed before.
theorem marked_operation_reports_failure :
    (∃ o o' o'', Misreports (.install {} {} 0) .remoteError o o' o'') ∧
    (∃ o o' o'', Misreports (.install { onConflict := .reinstall, packageName := ascii "a" } {} 0)
      .signatureMismatch o o' o'') ∧
    (∃ o o' o'', Misreports (.uninstall 0) .internal o o' o'') ∧
    (∃ o o' o'', Misreports .pull .deviceLost o o' o'') ∧
    ∃ o o' o'', Misreports .pull .ioError o o' o'' := by
  refine ⟨?worker, ?removal, ?session, ?online, ?late⟩
  case worker =>
    refine exists_misreports (List.replicate 4 (.resume {}))
      (List.flatten [[.work false []], List.replicate 5 (.resume {})]) ?_
    decide +kernel
  case removal =>
    refine exists_misreports (List.flatten [List.replicate 3 (.resume {}),
      [.work false (ascii "Failure [INSTALL_FAILED_UPDATE_INCOMPATIBLE]")],
      List.replicate 5 (.resume {}), [.resume { started := some (true, 0) }]])
      (List.replicate 5 (.resume {})) ?_
    decide +kernel
  case session =>
    refine exists_misreports [.resume {}] (List.replicate 3 (.resume {})) ?_
    decide +kernel
  case online =>
    refine exists_misreports [] [.resume { online := false }, .resume {}] ?_
    decide +kernel
  case late =>
    refine exists_misreports [.resume {}, .resume { transferred := some false }, .resume {}]
      [.resume {}] ?_
    decide +kernel

end Operation

import LibAdb.Machine.Activity
import LibAdb.Machine.Install
import LibAdb.Machine.Shell

namespace Activity

open Operation (modifyInner nextTransfer_cases nextRemoval_eq nextShell_eq)

-- Whatever happens, the uninstallation before a reinstall is going to fail.
def isDoomed (triggered : Bool) : Option ShellPoint → Bool
  | none | some .start => false
  | some (.abort _) | some .cancel => true
  | some (.done r) => (Device.uninstallResult r).status ≠ .ok
  | some _ => triggered

-- The uninstallation has opened its stream.
def isStarted : Option ShellPoint → Bool
  | none | some .start => false
  | some _ => true

def probesDevice : Job → Bool
  | .install _ timeout _ => timeout.commitHealthcheck = .shell
  | _ => false

-- No stream is going to be opened before the next look at the flag.
def isQuiet (job : Job) (worker : Option InstallWorker) : Point → Bool
  | .online | .file | .shell .start | .install .arguments | .install .prepare => false
  | .install (.attempt _ a) =>
    worker.any (·.closing) && !(a.point = .limits && probesDevice job)
  | .install (.removing _ _ flag point) => isDoomed flag.triggered point
  | _ => true

def hasStarted : Point → Bool
  | .install (.removing _ _ _ point) => isStarted point
  | _ => true

def isAwake : Point → Bool
  | .install (.removing _ _ flag point) => !flag.triggered || isStarted point
  | _ => true

-- An operation is cancelled where it is quiet, and the uninstallation before a reinstall where it
-- has its stream.
def isHeeded (s : Activity) : Action → Bool
  | .operation .mark =>
    (s.operation.flag.triggered || isQuiet s.operation.job s.worker
      (modifyInner ({ · with connectionClosed := true }) s.operation.point)) &&
    hasStarted s.operation.point
  | .operation (.cancel outer inner) =>
    (!outer || s.operation.flag.triggered || isQuiet s.operation.job s.worker
      (modifyInner (fun f => { f with canceled := f.canceled || inner }) s.operation.point)) &&
    (!inner || hasStarted s.operation.point)
  | _ => true

theorem uninstallResult_status (h : r.status ≠ .ok) : (Device.uninstallResult r).status ≠ .ok := by
  rwa [Device.uninstallResult, if_pos h]

theorem status_ne_ok (f : CancelFlag) : f.status ≠ .ok := by
  unfold CancelFlag.status
  split <;> simp

variable {o : Operation} {f : CancelFlag} {env : Env} {session : Option AdbSession}

theorem isDoomed_next {p : ShellPoint} {options : ShellOptions} (h : isDoomed f.triggered (some p))
    (hp : ∀ r, p ≠ .done r) :
    isDoomed f.triggered (some (p.next options f env session).1) := by
  cases p
  case start => cases h
  case check =>
    have ht : f.triggered := h
    simp [ShellPoint.next, ht, isDoomed]
  case slice =>
    simp only [ShellPoint.next]
    split
    · rfl
    · exact h
  case wait =>
    simp only [ShellPoint.next]
    split
    all_goals exact h
  case exited code =>
    have ht : f.triggered := h
    simp [ShellPoint.next, ht, isDoomed]
  case abort canceled =>
    cases canceled
    case true => rfl
    case false =>
      simp only [ShellPoint.next, isDoomed]
      refine decide_eq_true (uninstallResult_status ?_)
      rintro ⟨⟩
  case cancel => exact decide_eq_true (uninstallResult_status (status_ne_ok f))
  case done r => exact absurd rfl (hp r)

theorem isStarted_next {p : ShellPoint} {options : ShellOptions} :
    isStarted (some (p.next options f env session).1) := by
  cases p <;> simp only [ShellPoint.next]
  all_goals first | rfl | (split <;> rfl)

theorem probes_shell (h : InstallMonitor.probes timeout m observation) :
    timeout.commitHealthcheck = .shell := by
  simp only [InstallMonitor.probes, Bool.and_eq_true, decide_eq_true_eq] at h
  exact h.1.1.2

theorem openings_quiet (h : isQuiet o.job w o.point) : openings o env = [] := by
  obtain ⟨j, f, p, session⟩ := o
  cases p
  case online => cases h
  case file => cases h
  case transfer => rfl
  case shell p =>
    cases p
    case start => cases h
    all_goals rfl
  case finish => rfl
  case done => rfl
  case install p =>
    cases p
    case arguments => rfl
    case prepare => rfl
    case downgrade => rfl
    case conflict => rfl
    case removing r package flag p =>
      match p, h with
      | some .check, _ | some .slice, _ | some .wait, _ | some (.exited _), _ | some (.abort _), _
      | some .cancel, _ | some (.done _), _ => rfl
    case attempt trial a =>
      cases j
      case install options timeout removal =>
        refine if_neg fun hp => ?_
        simp only [Bool.and_eq_true, decide_eq_true_eq] at hp
        simp [isQuiet, probesDevice, hp.1.1, probes_shell hp.2] at h
      all_goals rfl

theorem isQuiet_next {a : InstallAttempt} {timeout : InstallTimeout} (hf : f.triggered)
    (h : isQuiet j w (.install (.attempt trial a))) :
    isQuiet j w (.install (.attempt trial (a.next timeout f env))) := by
  simp only [isQuiet, Bool.and_eq_true, Bool.not_eq_true'] at h ⊢
  refine ⟨h.1, ?_⟩
  obtain ⟨point, monitor, worker⟩ := a
  cases point <;> simp only [InstallAttempt.next]
  case check => simp [hf]
  case cancel => rfl
  case limits => split <;> rfl
  case finished => rfl
  all_goals split <;> rfl

theorem isQuiet_install {p : InstallPoint} (hf : f.triggered) (h : isQuiet j w (.install p)) :
    isQuiet j w (Operation.nextInstall options timeout removal f env session p).1 := by
  cases p
  case arguments => cases h
  case prepare => cases h
  case attempt trial a =>
    simp only [Operation.nextInstall]
    split
    case h_1 => cases trial <;> rfl
    case h_2 => exact isQuiet_next hf h
  case downgrade r =>
    simp only [Operation.nextInstall, hf, Bool.not_true, Bool.and_false]
    rfl
  case conflict r =>
    simp only [Operation.nextInstall, Operation.nextConflict, hf, Bool.not_true, Bool.and_false]
    rfl
  case removing r package flag p =>
    rcases p with - | p
    case none => cases h
    case some =>
      by_cases hp : ∃ removed, p = .done removed
      case pos =>
        obtain ⟨removed, rfl⟩ := hp
        have hr : (Device.uninstallResult removed).status ≠ .ok := of_decide_eq_true h
        simp only [Operation.nextInstall, Operation.nextRemoval, Operation.afterRemoval, hr, ne_eq,
          not_false_eq_true, if_true]
        rfl
      case neg =>
        simp only [Operation.nextInstall, nextRemoval_eq (not_exists.mp hp)]
        exact isDoomed_next h (not_exists.mp hp)

theorem isQuiet_shell {p : ShellPoint} : isQuiet j w (.shell p) = isStarted (some p) := by
  cases p <;> rfl

theorem isQuiet_resume (hf : o.flag.triggered) (h : isQuiet o.job w o.point) :
    isQuiet o.job w (o.resume env).1 := by
  obtain ⟨j, f, p, session⟩ := o
  cases p
  case online => cases h
  case file => cases h
  case transfer p =>
    simp only [Operation.resume]
    rcases nextTransfer_cases with ⟨p', hp⟩ | ⟨r, hp⟩
    all_goals rw [hp]; rfl
  case shell p =>
    by_cases hd : ∃ r, p = .done r
    case pos =>
      obtain ⟨r, rfl⟩ := hd
      rfl
    case neg =>
      simp only [Operation.resume, nextShell_eq (not_exists.mp hd), isQuiet_shell]
      exact isStarted_next
  case finish => rfl
  case done => rfl
  case install p =>
    cases j
    case install => exact isQuiet_install hf h
    all_goals exact h

theorem isAwake_install {p : InstallPoint} (h : isAwake (.install p)) :
    isAwake (Operation.nextInstall options timeout removal f env session p).1 := by
  cases p <;> simp only [Operation.nextInstall]
  case arguments => split <;> rfl
  case prepare => split <;> rfl
  case attempt trial a =>
    split
    case h_1 => cases trial <;> rfl
    case h_2 => rfl
  case downgrade r => split <;> rfl
  case conflict r =>
    simp only [Operation.nextConflict]
    split
    case isTrue => split <;> rfl
    case isFalse => rfl
  case removing r package flag p =>
    have after (removed : Result) : isAwake (Operation.afterRemoval r package removed) := by
      unfold Operation.afterRemoval
      split <;> rfl
    rcases p with - | p
    case none =>
      simp only [Operation.nextRemoval]
      split
      case isTrue => exact h
      case isFalse => exact after _
    case some =>
      by_cases hp : ∃ removed, p = .done removed
      case pos =>
        obtain ⟨removed, rfl⟩ := hp
        exact after _
      case neg =>
        rw [nextRemoval_eq (not_exists.mp hp)]
        exact Bool.or_eq_true_iff.mpr (.inr isStarted_next)

theorem isAwake_resume (h : isAwake o.point) : isAwake (o.resume env).1 := by
  obtain ⟨j, f, p, session⟩ := o
  cases p <;> simp only [Operation.resume]
  case online =>
    split
    case isTrue => cases j <;> rfl
    case isFalse => rfl
  case file => split <;> rfl
  case transfer p =>
    rcases nextTransfer_cases with ⟨p', hp⟩ | ⟨r, hp⟩
    all_goals rw [hp]; rfl
  case shell p => cases p <;> rfl
  case install p =>
    cases j
    case install => exact isAwake_install h
    all_goals exact h
  all_goals rfl

structure Settled (s : Activity) : Prop where
  quiet  : s.operation.flag.triggered → isQuiet s.operation.job s.worker s.operation.point
  awake  : isAwake s.operation.point

namespace Settled

variable {s s' : Activity} {a : Action}

theorem initial (job : Job) : Settled (initial job) where
  quiet := by cases job <;> rintro ⟨⟩
  awake := by cases job <;> rfl

theorem isQuiet_worker {p : Point} :
    isQuiet j (if isAttempt p then w else none) p = isQuiet j w p := by
  by_cases ha : isAttempt p
  case pos => rw [if_pos ha]
  case neg =>
    unfold isQuiet
    split
    case h_6 => exact absurd rfl ha
    all_goals rfl

theorem isQuiet_none {p : Point} (ha : isAttempt p) : isQuiet j none p = false := by
  have ⟨trial, x, hp⟩ := attempt_of_isAttempt ha
  rw [hp]
  rfl

theorem isQuiet_closing {p : Point} {w w' : Option InstallWorker}
    (hw : w'.any (·.closing) = w.any (·.closing)) (h : isQuiet j w p) :
    isQuiet j w' p := by
  unfold isQuiet at h ⊢
  rwa [hw]

theorem isAwake_modifyInner {p : Point} {g : CancelFlag → CancelFlag} (h : isAwake p)
    (hg : (∀ f, (g f).triggered = f.triggered) ∨ hasStarted p) : isAwake (modifyInner g p) := by
  unfold modifyInner
  split
  case h_1 r package f q =>
    rcases hg with hg | hg
    case inl => simpa only [isAwake, hg f] using h
    case inr => exact Bool.or_eq_true_iff.mpr (.inr hg)
  case h_2 => exact h

theorem isDoomed_mono {t t' : Bool} (h : isDoomed t p) (ht : t → t') : isDoomed t' p := by
  match p with
  | none | some .start => cases h
  | some (.abort _) | some .cancel => rfl
  | some (.done _) => exact h
  | some .check | some .slice | some .wait | some (.exited _) => exact ht h

theorem isQuiet_modifyInner {p : Point} {g : CancelFlag → CancelFlag}
    (hg : ∀ f, f.triggered → (g f).triggered) (h : isQuiet j w p) :
    isQuiet j w (modifyInner g p) := by
  unfold modifyInner
  split
  case h_1 => exact isDoomed_mono h (hg _)
  case h_2 => exact h

theorem closing (h : Settled s) (hj : Joined s) (hf : s.operation.flag.triggered)
    (hw : s.worker = some w) : w.closing := by
  have ⟨trial, x, hp⟩ := attempt_of_isAttempt (hj.placed (by rw [hw]; rfl))
  have quiet := h.quiet hf
  rw [hp, hw] at quiet
  simp only [isQuiet, Option.any_some, Bool.and_eq_true] at quiet
  exact quiet.left

theorem resume (h : Settled s) : Settled {
    operation := { s.operation with
      point := (s.operation.resume env).1, session := (s.operation.resume env).2 },
    worker := if isAttempt (s.operation.resume env).1 then s.worker else none,
    opened := s.opened ++ openings s.operation env } where
  quiet hf := isQuiet_worker.trans (isQuiet_resume hf (h.quiet hf))
  awake := isAwake_resume h.awake

theorem mark (h : Settled s) (hp : s.isHeeded (.operation .mark)) : Settled { s with
    operation := { s.operation with
      flag := { s.operation.flag with connectionClosed := true },
      point := modifyInner ({ · with connectionClosed := true }) s.operation.point } } := by
  simp only [isHeeded, Bool.and_eq_true, Bool.or_eq_true] at hp
  constructor
  case quiet =>
    intro _
    rcases hp.left with hf | hq
    case inl => exact isQuiet_modifyInner (by simp [CancelFlag.triggered]) (h.quiet hf)
    case inr => exact hq
  case awake => exact isAwake_modifyInner h.awake (.inr hp.right)

theorem cancel {outer inner : Bool} (h : Settled s)
    (hp : s.isHeeded (.operation (.cancel outer inner))) :
    Settled { s with
      operation := { s.operation with
        flag := { s.operation.flag with canceled := s.operation.flag.canceled || outer },
        point := modifyInner (fun f => { f with canceled := f.canceled || inner })
          s.operation.point } } := by
  simp only [isHeeded, Bool.and_eq_true, Bool.or_eq_true, Bool.not_eq_true'] at hp
  have stays (f : CancelFlag) (hf : f.triggered) :
      { f with canceled := f.canceled || inner }.triggered := by
    simp only [CancelFlag.triggered, Bool.or_eq_true] at hf ⊢
    exact hf.imp_left .inl
  constructor
  case quiet =>
    intro hf
    rcases hp.left with (ho | ht) | hq
    case inl.inl =>
      apply isQuiet_modifyInner stays (h.quiet _)
      simpa [CancelFlag.triggered, ho] using hf
    case inl.inr => exact isQuiet_modifyInner stays (h.quiet ht)
    case inr => exact hq
  case awake =>
    apply isAwake_modifyInner h.awake (hp.right.imp_left _)
    rintro rfl f
    simp [CancelFlag.triggered]

theorem worker {w w' : InstallWorker} (h : Settled s) (hw : s.worker = some w)
    (hs : w'.closing = w.closing) : Settled { s with worker := some w' } where
  quiet hf := isQuiet_closing (by rw [hw, Option.any_some, Option.any_some, hs]) (h.quiet hf)
  awake := h.awake

theorem next (h : Settled s) (hj : Joined s) (hp : s.isHeeded a) (hn : s.next a = some s') :
    Settled s' := by
  cases next_acts hn
  case resume => exact h.resume
  case mark => exact h.mark hp
  case cancel => exact h.cancel hp
  case work hq hw =>
    refine ⟨fun hf => ?_, rfl⟩
    have quiet := h.quiet hf
    rwa [hq] at quiet
  case session => exact ⟨h.quiet, h.awake⟩
  case launch ha hw =>
    refine ⟨fun hf => ?_, h.awake⟩
    cases (isQuiet_none ha).symm.trans (hw ▸ h.quiet hf)
  case connect hw =>
    refine ⟨fun hf => ?_, h.awake⟩
    cases h.closing hj hf hw
  case leave hw =>
    refine ⟨fun hf => ?_, h.awake⟩
    cases h.closing hj hf hw
  case fail hw => exact h.worker hw rfl
  case copied hw => exact h.worker hw rfl
  case block hw => exact h.worker hw rfl
  case read hw => exact h.worker hw rfl

end Settled

theorem openings_started {p : Option ShellPoint}
    (hp : o.point = .install (.removing r package f p)) (h : isStarted p) :
    openings o env = [] := by
  unfold openings
  rw [hp]
  match p, h with
  | some .check, _ | some .slice, _ | some .wait, _ | some (.exited _), _ | some (.abort _), _
  | some .cancel, _ | some (.done _), _ => rfl

-- Only the thread of the operation and its worker open streams.
theorem opened_eq {s s' : Activity} {a : Action} (hn : s.next a = some s')
    (hr : ∀ env, openings s.operation env = [])
    (hw : ∀ w, s.worker = some w → w.closing) : s'.opened = s.opened := by
  cases next_acts hn
  case resume => simp only [hr, List.append_nil]
  case connect hc => cases hw _ hc
  all_goals rfl

theorem cancelled_opens_nothing (job : Job) (s s' : Activity) (a : Action)
    (run : Runs (fun s a => s.isHeeded a) (initial job) s) (hn : s.next a = some s') :
    (s.operation.flag.triggered → s'.opened = s.opened) ∧
    ∀ r package flag p, s.operation.point = .install (.removing r package flag p) →
      flag.triggered → s'.opened = s.opened := by
  have joined : Joined s := .of_run run
  have settled : Settled s := run.invariant_under (fun _ _ _ _ hn h => h.next hn)
    (fun _ _ _ hj hp hn h => h.next hj hp hn) (.initial job) (.initial job)
  constructor
  · intro hf
    exact opened_eq hn (fun _ => openings_quiet (settled.quiet hf))
      fun w hw => settled.closing joined hf hw
  · intro r package flag p hp hf
    have awake := settled.awake
    rw [hp] at awake
    have started : isStarted p := by simpa [isAwake, hf] using awake
    apply opened_eq hn (fun _ => openings_started hp started)
    intro w hw
    have placed := joined.placed (by rw [hw]; rfl)
    rw [hp] at placed
    cases placed

-- A shell command is cancelled while it runs, and it opens nothing more.
theorem cancelled_opens_nothing_of_shell :
    ∃ s s', Runs (fun s a => s.isHeeded a) (initial (.shell {})) s ∧
      s.next (.operation (.resume {})) = some s' ∧ s.operation.flag.triggered ∧
      s.opened = [.shell] ∧ s'.opened = s.opened := by
  have ⟨s, reached, hf, ho, s', hn, _⟩ : ∃ s, Runs (fun s a => s.isHeeded a) (initial (.shell {})) s ∧
      s.operation.flag.triggered ∧ s.opened = [.shell] ∧
      ∃ s' ∈ s.next (.operation (.resume {})), True :=
    Reach.exists_of_guarded (fun _ _ hq => hq) [.operation (.resume {}),
      .operation (.resume { started := some (true, 0) }), .operation (.cancel true false)]
      (by decide +kernel)
  exact ⟨s, s', reached, hn, hf, ho, (cancelled_opens_nothing _ _ _ _ reached hn).left hf⟩

-- The flag of an operation is set by a step, and afterwards streams are opened for it.
structure Overruns (job : Job) (s s' t : Activity) : Prop where
  runs     : Runs (fun _ _ => True) (initial job) s
  active   : s.operation.flag = {}
  canceled : s.next (.operation (.cancel true false)) = some s'
  later    : Runs (fun _ _ => True) s' t
  opens    : s'.opened.length < t.opened.length

theorem exists_overruns {job : Job} (before after : List Action)
    (h : (exec next (initial job) before).any fun s => s.operation.flag == {} &&
      (s.next (.operation (.cancel true false))).any fun s' =>
        (exec next s' after).any (s'.opened.length < ·.opened.length)) :
    ∃ s s' t, Overruns job s s' t := by
  simp only [Option.any_eq_true, Bool.and_eq_true, beq_iff_eq, decide_eq_true_eq] at h
  have ⟨s, hs, active, s', canceled, t, later, opens⟩ := h
  exact ⟨s, s', t, .of_exec hs, active, canceled, .of_exec later, opens⟩

def sampleReplies : Attempt where
  features := .const [ascii "cmd"]
  replies  := .const { text := ascii "Success [1]" }

-- What the worker sends to a device that accepts everything.
def sampleScript : List InstallCommand :=
  [{ service := ascii "exec:cmd package install-create -S 1" },
    { service := ascii "exec:cmd package install-write -S 1 1 app.apk -", blocks := some 1 },
    { service := ascii "exec:cmd package install-commit 1", last := true }]

def scriptActions : List Action :=
  sampleScript.flatMap fun c =>
    .connect c :: List.replicate (c.blocks.elim 0 (· + 1)) (.copy true) ++ [.read]

-- A shell command is cancelled before a thread takes it; an installation while its session is
-- created, before the file is written and the session is committed; at a health check; and during
-- the uninstallation before a reinstall.
theorem cancelled_opens_streams :
    (∃ s s' t, Overruns (.shell {}) s s' t) ∧
    ((AdbInstaller.install Device.sampleHost sampleReplies { files := Device.sampleFiles }
        [ascii "app.apk"] [] false).toOption.map (·.2.2.sent) =
        some (sampleScript.map (·.service)) ∧
      ∃ s s' t, Overruns (.install {} {} 0) s s' t) ∧
    (∃ s s' t, Overruns (.install {} { commitHealthcheck := .shell } 0) s s' t) ∧
    ∃ s s' t, Overruns (.install { onConflict := .reinstall, packageName := ascii "a" } {} 0)
      s s' t := by
  refine ⟨?pending, ⟨by decide +kernel, ?session⟩, ?probe, ?removal⟩
  case pending =>
    refine exists_overruns [] [.operation (.resume {}),
      .operation (.resume { started := some (true, 0) })] ?_
    decide +kernel
  case session =>
    refine exists_overruns (List.flatten [List.replicate 3 (.operation (.resume {})),
      [.launch], scriptActions.take 1]) (scriptActions.drop 1) ?_
    decide +kernel
  case probe =>
    refine exists_overruns (List.flatten [List.replicate 3 (.operation (.resume {})),
      [.launch], scriptActions, List.replicate 3 (.operation (.resume {})),
      [.operation (.resume { observation := { now := 1000, transferring := true } })],
      List.replicate 3 (.operation (.resume {}))])
      [.operation (.resume { observation := { now := 11000, transferring := true } })] ?_
    decide +kernel
  case removal =>
    refine exists_overruns (List.flatten [List.replicate 3 (.operation (.resume {})),
      [.launch, .leave, .operation (.work false (ascii "Failure [INSTALL_FAILED_UPDATE_INCOMPATIBLE]"))],
      List.replicate 5 (.operation (.resume {})),
      [.operation (.resume { started := some (false, 0) })]])
      (List.flatten [[.operation (.receive (ascii "Success")), .operation .read,
          .operation .hangup, .operation .read], List.replicate 6 (.operation (.resume {})),
        [.launch], scriptActions.take 1]) ?_
    decide +kernel

end Activity

import LibAdb.Execution.Activity
import LibAdb.Machine.Operation

namespace Activity

open Operation (modifyInner endWorker_attempt hasGivenUp)

inductive Acts (s : Activity) : Action → Activity → Prop
  | resume : Acts s (.operation (.resume env)) {
      operation := { s.operation with
        point := (s.operation.resume env).1, session := (s.operation.resume env).2 },
      worker := if isAttempt (s.operation.resume env).1 then s.worker else none,
      opened := s.opened ++ openings s.operation env }
  | mark : Acts s (.operation .mark) { s with
      operation := { s.operation with
        flag := { s.operation.flag with connectionClosed := true },
        point := modifyInner ({ · with connectionClosed := true }) s.operation.point } }
  | cancel {outer inner : Bool} : Acts s (.operation (.cancel outer inner)) { s with
      operation := { s.operation with
        flag := { s.operation.flag with canceled := s.operation.flag.canceled || outer },
        point := modifyInner (fun f => { f with canceled := f.canceled || inner })
          s.operation.point } }
  | work : s.operation.point = .install (.attempt trial a) → s.worker = some { closing := true } →
    Acts s (.operation (.work ok output)) { s with
      operation := { s.operation with
        point := .install (.attempt trial { a with worker := some (ok, output) }) } }
  | session : Acts s (.operation b) { s with operation := { s.operation with session } }
  | launch : isAttempt s.operation.point → s.worker = none →
    Acts s .launch { s with worker := some {} }
  | connect : s.worker = some {} → Acts s (.connect c) { s with
      worker := some { stage := some (InstallCommand.stage c), closing := c.last },
      opened := s.opened ++ [.command c.service] }
  | fail : s.worker = some { stage := some (.copying left), closing } →
    Acts s (.copy false) { s with worker := some { closing } }
  | copied : s.worker = some { stage := some (.copying 0), closing } →
    Acts s (.copy true) { s with worker := some { stage := some .reading, closing } }
  | block : s.worker = some { stage := some (.copying (left + 1)), closing } →
    Acts s (.copy true) { s with
      worker := some {
        stage := if hasGivenUp s.operation.point then none else some (.copying left), closing } }
  | read : s.worker = some { stage := some .reading, closing } →
    Acts s .read { s with worker := some { closing } }
  | leave : s.worker = some {} → Acts s .leave { s with worker := some { closing := true } }

-- There is a worker in an attempt only, and one that has ended is behind its last command.
structure Joined (s : Activity) : Prop where
  placed : s.worker.isSome → isAttempt s.operation.point
  ended  : s.operation.point = .install (.attempt trial a) → a.worker.isSome →
    s.worker = some { closing := true }

variable {s s' : Activity} {a : Action}

theorem operation_acts {b : Operation.Action} (h : s.next (.operation b) = some s') :
    s.Acts (.operation b) s' := by
  cases b <;> simp only [next, Operation.next, Option.map_eq_some_iff,
    Option.ite_none_left_eq_some, Option.ite_none_right_eq_some, Option.some.injEq] at h
  case mark =>
    obtain ⟨_, ⟨_, rfl⟩, rfl⟩ := h
    exact .mark
  case cancel =>
    obtain ⟨_, ⟨_, rfl⟩, rfl⟩ := h
    exact .cancel
  case resume =>
    obtain ⟨_, ⟨_, rfl⟩, rfl⟩ := h
    exact .resume
  case work =>
    obtain ⟨hw, _, ⟨p, he, rfl⟩, rfl⟩ := h
    obtain ⟨trial, a, hp, _, rfl⟩ := endWorker_attempt he
    exact .work hp hw
  case receive =>
    obtain ⟨_, ⟨_, _, rfl⟩, rfl⟩ := h
    exact .session
  case hangup =>
    obtain ⟨_, ⟨_, _, rfl⟩, rfl⟩ := h
    exact .session
  case read =>
    obtain ⟨_, ⟨_, _, rfl⟩, rfl⟩ := h
    exact .session

theorem copy_acts (hw : s.worker = some w) (h : copy w (hasGivenUp s.operation.point) ok = some w') :
    s.Acts (.copy ok) { s with worker := some w' } := by
  obtain ⟨stage, closing⟩ := w
  rcases stage with - | left | -
  case none => cases h
  case some.reading => cases h
  case some.copying =>
    cases ok
    case false =>
      cases h
      exact .fail hw
    case true =>
      cases left
      case zero =>
        cases h
        exact .copied hw
      case succ =>
        cases h
        exact .block hw

theorem next_acts (h : s.next a = some s') : s.Acts a s' := by
  cases a
  case operation => exact operation_acts h
  case launch =>
    simp only [next, Bool.and_eq_true, Option.isNone_iff_eq_none, Option.ite_none_right_eq_some,
      Option.some.injEq] at h
    obtain ⟨⟨hp, hw⟩, rfl⟩ := h
    exact .launch hp hw
  case connect =>
    simp only [next, Option.ite_none_right_eq_some, Option.some.injEq] at h
    obtain ⟨hw, rfl⟩ := h
    exact .connect hw
  case copy =>
    simp only [next, Option.map_eq_some_iff, Option.bind_eq_some_iff] at h
    obtain ⟨w', ⟨w, hw, hc⟩, rfl⟩ := h
    exact copy_acts hw hc
  case read =>
    simp only [next, Option.ite_none_right_eq_some, Option.map_eq_some_iff] at h
    obtain ⟨hr, w, hw, rfl⟩ := h
    obtain ⟨stage, closing⟩ := w
    rw [hw] at hr
    cases hr
    exact .read hw
  case leave =>
    simp only [next, Option.ite_none_right_eq_some, Option.some.injEq] at h
    obtain ⟨hw, rfl⟩ := h
    exact .leave hw

theorem isAttempt_modifyInner {p : Point} {g : CancelFlag → CancelFlag} :
    isAttempt (modifyInner g p) = isAttempt p := by
  unfold modifyInner
  split <;> rfl

theorem attempt_of_isAttempt {p : Point} (h : isAttempt p) :
    ∃ trial x, p = .install (.attempt trial x) := by
  unfold isAttempt at h
  split at h
  case h_1 trial x => exact ⟨trial, x, rfl⟩
  case h_2 => cases h

theorem next_worker {x : InstallAttempt} : (x.next timeout flag env).worker = x.worker := by
  obtain ⟨point, monitor, worker⟩ := x
  cases point <;> rfl

theorem install_attempt {p : InstallPoint} {x : InstallAttempt}
    (h : (Operation.nextInstall options timeout removal f env session p).1 =
      .install (.attempt trial x)) :
    x.worker = none ∨ ∃ y, p = .attempt trial y ∧ x.worker = y.worker := by
  cases p <;> simp only [Operation.nextInstall] at h
  case arguments => split at h <;> cases h
  case prepare =>
    split at h <;> cases h
    exact .inl rfl
  case attempt trial' y =>
    split at h
    case h_1 => cases trial' <;> cases h
    case h_2 =>
      cases h
      exact .inr ⟨y, rfl, next_worker⟩
  case downgrade =>
    split at h <;> cases h
    exact .inl rfl
  case conflict =>
    simp only [Operation.nextConflict] at h
    split at h
    case isTrue => split at h <;> cases h
    case isFalse => cases h
  case removing r package flag p =>
    have after (removed : Result)
        (h : Operation.afterRemoval r package removed = .install (.attempt trial x)) :
        x.worker = none := by
      unfold Operation.afterRemoval at h
      split at h <;> cases h
      rfl
    rcases p with - | p
    case none =>
      simp only [Operation.nextRemoval] at h
      split at h
      case isTrue => cases h
      case isFalse => exact .inl (after _ h)
    case some =>
      by_cases hp : ∃ removed, p = .done removed
      case pos =>
        obtain ⟨removed, rfl⟩ := hp
        exact .inl (after _ h)
      case neg =>
        rw [Operation.nextRemoval_eq (not_exists.mp hp)] at h
        cases h

theorem resume_attempt {o : Operation} {x : InstallAttempt}
    (h : (o.resume env).1 = .install (.attempt trial x)) :
    x.worker = none ∨ ∃ y, o.point = .install (.attempt trial y) ∧ x.worker = y.worker := by
  obtain ⟨j, f, p, session⟩ := o
  cases p <;> simp only [Operation.resume] at h
  case online =>
    split at h
    case isTrue => cases j <;> cases h
    case isFalse => cases h
  case file => split at h <;> cases h
  case transfer =>
    rcases Operation.nextTransfer_cases with ⟨p', hp⟩ | ⟨r, hp⟩
    all_goals cases hp.symm.trans h
  case shell p => cases p <;> cases h
  case finish => cases h
  case done => cases h
  case install p =>
    cases j
    case install =>
      rcases install_attempt h with hw | ⟨y, hp, hy⟩
      · exact .inl hw
      · exact .inr ⟨y, congrArg Point.install hp, hy⟩
    all_goals exact .inr ⟨x, h, rfl⟩

namespace Joined

theorem initial (job : Job) : Joined (initial job) where
  placed := by rintro ⟨⟩
  ended hp := by cases job <;> cases hp

theorem resume (h : Joined s) : Joined {
    operation := { s.operation with
      point := (s.operation.resume env).1, session := (s.operation.resume env).2 },
    worker := if isAttempt (s.operation.resume env).1 then s.worker else none,
    opened := s.opened ++ openings s.operation env } where
  placed hw := by
    by_contra ha
    simp only [ha] at hw
    cases hw
  ended hp hw := by
    have ha : isAttempt (s.operation.resume env).1 := congrArg isAttempt hp
    simp only [ha, if_true]
    rcases resume_attempt hp with hn | ⟨b, hb, he⟩
    case inl => rw [hn] at hw; cases hw
    case inr => exact h.ended hb (he ▸ hw)

theorem modifyInner {flag : CancelFlag} {g : CancelFlag → CancelFlag} (h : Joined s) : Joined { s with
    operation := { s.operation with flag, point := modifyInner g s.operation.point } } where
  placed hw := isAttempt_modifyInner.trans (h.placed hw)
  ended hp := by
    unfold Operation.modifyInner at hp
    split at hp
    case h_1 => cases hp
    case h_2 => exact h.ended hp

theorem worker {w : InstallWorker} {l : List Opening} (h : Joined s) (hw : s.worker.isSome)
    (hn : s.worker ≠ some { closing := true }) : Joined { s with worker := some w, opened := l } where
  placed _ := h.placed hw
  ended hp he := absurd (h.ended hp he) hn

theorem next (h : Joined s) (hn : s.next a = some s') : Joined s' := by
  cases next_acts hn
  case resume => exact h.resume
  case mark => exact h.modifyInner
  case cancel => exact h.modifyInner
  case work hp hw => exact ⟨fun _ => rfl, fun _ _ => hw⟩
  case session => exact ⟨h.placed, h.ended⟩
  case launch hp hw =>
    refine ⟨fun _ => hp, fun hq he => ?_⟩
    cases hw.symm.trans (h.ended hq he)
  case connect hw => exact h.worker (by rw [hw]; rfl) (by rw [hw]; simp)
  case fail hw => exact h.worker (by rw [hw]; rfl) (by rw [hw]; simp)
  case copied hw => exact h.worker (by rw [hw]; rfl) (by rw [hw]; simp)
  case block hw => exact h.worker (by rw [hw]; rfl) (by rw [hw]; simp)
  case read hw => exact h.worker (by rw [hw]; rfl) (by rw [hw]; simp)
  case leave hw => exact h.worker (by rw [hw]; rfl) (by rw [hw]; simp)

theorem of_run (run : Runs P (Activity.initial job) s) : Joined s :=
  run.invariant (fun _ _ _ _ hn h => h.next hn) (.initial job)

end Joined

end Activity

import LibAdb.Execution.Operation

namespace Operation

def Fits (o : Operation) : Prop :=
  ∀ p, o.point = .install p → ∃ options timeout removal, o.job = .install options timeout removal

variable {o o' : Operation} {env : Env} {a : Action}

theorem nextTransfer_cases {j : Job} {f : CancelFlag} {p : TransferPoint} :
    (∃ p', nextTransfer j f env p = .transfer p') ∨ ∃ r, nextTransfer j f env p = .finish r := by
  cases p <;> simp only [nextTransfer]
  case run =>
    split
    case h_1 => exact .inr ⟨_, rfl⟩
    case h_2 => exact .inl ⟨_, rfl⟩
    case h_3 => split <;> exact .inl ⟨_, rfl⟩
  case seen => exact .inl ⟨_, rfl⟩
  case limits => exact .inl ⟨_, rfl⟩
  case finished =>
    split
    case isTrue => exact .inr ⟨_, rfl⟩
    case isFalse =>
      split
      case isTrue => exact .inl ⟨_, rfl⟩
      case isFalse => exact .inr ⟨_, rfl⟩
  case cancel => exact .inr ⟨_, rfl⟩

theorem nextRemoval_eq {removal : Int} {r : Result} {package : Bytes} {f : CancelFlag}
    {x : Option AdbSession} {p : ShellPoint} (h : ∀ removed, p ≠ .done removed) :
    nextRemoval env removal r package f x (some p) =
      (.install (.removing r package f (some (p.next { timeout := removal } f env x).1)),
        (p.next { timeout := removal } f env x).2) := by
  cases p
  case done removed => exact absurd rfl (h removed)
  all_goals rfl

theorem endWorker_attempt {p p' : Point} (h : endWorker ok output p = some p') :
    ∃ trial a, p = .install (.attempt trial a) ∧ a.worker = none ∧
      p' = .install (.attempt trial { a with worker := some (ok, output) }) := by
  unfold endWorker at h
  split at h
  case h_1 trial a =>
    split at h <;> cases h
    case isFalse hw => exact ⟨trial, a, rfl, by simpa using hw, rfl⟩
  case h_2 => cases h

theorem Fits.start (j : Job) : Fits (start j) := by
  intro p hp
  cases j <;> cases hp
  exact ⟨_, _, _, rfl⟩

theorem Fits.modifyInner (h : Fits o) {flag : CancelFlag} {f : CancelFlag → CancelFlag} :
    Fits { o with flag, point := modifyInner f o.point } := by
  intro p hp
  unfold Operation.modifyInner at hp
  split at hp
  case h_1 hq => exact h _ hq
  case h_2 => exact h p hp

theorem Fits.resume (h : Fits o) :
    Fits { o with point := (o.resume env).1, session := (o.resume env).2 } := by
  obtain ⟨j, f, p, x⟩ := o
  intro q hq
  cases p
  case online =>
    simp only [Operation.resume] at hq
    split at hq
    case isTrue =>
      cases j <;> cases hq
      exact ⟨_, _, _, rfl⟩
    case isFalse => cases hq
  case file =>
    simp only [Operation.resume] at hq
    split at hq <;> cases hq
  case transfer p =>
    have goes : nextTransfer j f env p = .install q := hq
    rcases nextTransfer_cases with ⟨p', h⟩ | ⟨r, h⟩
    all_goals cases h.symm.trans goes
  case shell p =>
    cases p <;> cases hq
  case install p => exact h p rfl
  case finish => cases hq
  case done => cases hq

theorem Fits.next {a : Action} (h : Fits o) (hn : o.next a = some o') : Fits o' := by
  cases a <;> simp only [Operation.next, Option.ite_none_left_eq_some, Option.some.injEq,
    Option.map_eq_some_iff] at hn
  case mark =>
    obtain ⟨_, rfl⟩ := hn
    exact h.modifyInner
  case cancel =>
    obtain ⟨_, rfl⟩ := hn
    exact h.modifyInner
  case resume =>
    obtain ⟨_, rfl⟩ := hn
    exact h.resume
  case work =>
    obtain ⟨p, hp, rfl⟩ := hn
    obtain ⟨trial, a, hq, _, rfl⟩ := endWorker_attempt hp
    exact fun _ _ => h _ hq
  case receive =>
    obtain ⟨_, _, rfl⟩ := hn
    exact h
  case hangup =>
    obtain ⟨_, _, rfl⟩ := hn
    exact h
  case read =>
    obtain ⟨_, _, rfl⟩ := hn
    exact h

end Operation

import LibAdb.Machine.Activity

namespace Activity

open Operation (hasGivenUp)

def stage (s : Activity) : Option Stage :=
  s.worker.bind (·.stage)

def polls (s : Activity) : Action → Bool
  | .copy true => match s.stage with
    | some (.copying (_ + 1)) => true
    | _ => false
  | _ => false

def readsFile : Action → Bool
  | .copy ok => ok
  | _ => true

-- Whatever happens, the observer is asked before the worker waits for a reply.
def PollsFirst (s : Activity) : Prop :=
  ∀ t, Runs (fun s a => !polls s a && readsFile a) s t → t.stage ≠ some .reading

def Released (s : Activity) : Prop :=
  s.stage = none ∨ PollsFirst s

-- No stream is open, or there are blocks of the file left that is being copied.
def isReleasable (s : Activity) : Bool :=
  match s.stage with
  | none | some (.copying (_ + 1)) => true
  | _ => false

variable {s s' : Activity} {a : Action}

theorem stage_eq (h : s.stage = some g) : ∃ closing, s.worker = some { stage := some g, closing } := by
  have ⟨w, hw, hs⟩ := Option.bind_eq_some_iff.mp h
  exact ⟨w.closing, by rw [hw, ← hs]⟩

theorem resume_isAttempt {o : Operation} (hp : o.point = .install (.attempt trial x))
    (hw : x.worker = none) : isAttempt (o.resume env).1 := by
  obtain ⟨j, f, p, session⟩ := o
  cases hp
  cases j
  case install =>
    have hr : x.result = none := by
      unfold InstallAttempt.result
      rw [hw]
      split
      case h_1 h => cases h
      case h_2 => rfl
    simp only [Operation.resume, Operation.nextInstall, hr]
    rfl
  all_goals rfl

theorem PollsFirst.of_copying (hj : Joined s) (hs : s.stage = some (.copying (n + 1))) :
    PollsFirst s := by
  intro t run
  suffices h : t.stage = some (.copying (n + 1)) by
    rw [h]
    simp
  refine run.invariant_under (J := fun t => t.stage = some (.copying (n + 1)))
    (fun _ _ _ _ hn h => h.next hn) (fun u a u' hj hp hn hs => ?_) hj hs
  have ⟨closing, hw⟩ := stage_eq hs
  cases next_acts hn
  case resume =>
    have ⟨trial, x, hx⟩ := attempt_of_isAttempt (hj.placed (by rw [hw]; rfl))
    have going : x.worker = none := by
      by_contra he
      cases hw.symm.trans (hj.ended hx (Option.isSome_iff_ne_none.mpr he))
    simp only [stage, resume_isAttempt hx going, if_true]
    exact hs
  case mark => exact hs
  case cancel => exact hs
  case session => exact hs
  case work h => cases hw.symm.trans h
  case launch h => cases hw.symm.trans h
  case connect h => cases hw.symm.trans h
  case leave h => cases hw.symm.trans h
  case fail h => simp [readsFile] at hp
  case copied h => cases hw.symm.trans h
  case block h => simp [polls, hs] at hp
  case read h => cases hw.symm.trans h

theorem released_iff (hj : Joined s) : Released s ↔ s.isReleasable := by
  unfold isReleasable
  split
  case h_1 hs => simp [Released, hs]
  case h_2 hs => simp [Released, PollsFirst.of_copying hj hs]
  case h_3 none copying =>
    suffices h : ¬PollsFirst s by simpa [Released, h] using none
    intro polled
    rcases hs : s.stage with - | left | -
    case none => exact none hs
    case some.reading => exact polled s .refl hs
    case some.copying =>
      cases left
      case succ left => exact copying left hs
      case zero =>
        have ⟨closing, hw⟩ := stage_eq hs
        have hn : s.next (.copy true) =
            some { s with worker := some { stage := some .reading, closing } } := by
          simp [next, hw, copy]
        exact polled _ (.single (by simp [polls, readsFile, hs]) hn) rfl

theorem isAttempt_of_hasGivenUp {p : Point} (h : hasGivenUp p) : isAttempt p := by
  unfold hasGivenUp at h
  split at h
  case h_1 => rfl
  case h_2 => cases h

theorem give_up_worker (hn : s.next a = some s') (hb : ¬hasGivenUp s.operation.point)
    (hg : hasGivenUp s'.operation.point) : s'.worker = s.worker := by
  cases next_acts hn
  case resume => exact if_pos (isAttempt_of_hasGivenUp hg)
  case mark => rfl
  case cancel => rfl
  case work => rfl
  case session => rfl
  all_goals exact absurd hg hb

theorem give_up_releases_iff (job : Job) (s s' : Activity) (a : Action)
    (run : Runs (fun _ _ => True) (initial job) s) (hn : s.next a = some s')
    (hb : ¬hasGivenUp s.operation.point) (hg : hasGivenUp s'.operation.point) :
    Released s' ↔ s.isReleasable := by
  have joined : Joined s := .of_run run
  rw [released_iff (joined.next hn)]
  simp only [isReleasable, stage, give_up_worker hn hb hg]

structure GivesUp (timeout : InstallTimeout) (reason : GiveUp) (s : Activity) (env : Env)
    (s' : Activity) : Prop where
  runs  : Runs (fun _ _ => True) (initial (.install {} timeout 0)) s
  step  : s.next (.operation (.resume env)) = some s'
  waits : ¬hasGivenUp s.operation.point
  gives : hasGivenUp s'.operation.point
  point : ∃ trial x, s'.operation.point = .install (.attempt trial x) ∧
    x.point = .finished (some reason)

def reasonOf : Point → Option GiveUp
  | .install (.attempt _ { point := .finished (some reason), .. }) => some reason
  | _ => none

theorem attempt_of_reasonOf {p : Point} (h : reasonOf p = some reason) :
    ∃ trial x, p = .install (.attempt trial x) ∧ x.point = .finished (some reason) := by
  unfold reasonOf at h
  split at h
  case h_1 => exact ⟨_, _, rfl, by rw [Option.some.inj h]⟩
  case h_2 => cases h

theorem exists_givesUp (timeout : InstallTimeout) (reason : GiveUp) (g : Option Stage)
    (before : List Action) (env : Env)
    (h : (exec next (initial (.install {} timeout 0)) before).any fun s =>
      !hasGivenUp s.operation.point && s.stage == g &&
      (s.next (.operation (.resume env))).any fun s' =>
        hasGivenUp s'.operation.point && reasonOf s'.operation.point == some reason) :
    ∃ s s', s.stage = g ∧ GivesUp timeout reason s env s' := by
  simp only [Option.any_eq_true, Bool.and_eq_true, Bool.not_eq_true', beq_iff_eq] at h
  have ⟨s, hs, ⟨waits, he⟩, s', step, gives, hr⟩ := h
  exact ⟨s, s', he, .of_exec hs, step, by simp [waits], gives, attempt_of_reasonOf hr⟩

def looks : List Action :=
  List.replicate 3 (.operation (.resume {}))

def sampleWorker (n : Nat) : List Action :=
  List.replicate 3 (.operation (.resume {})) ++
    [.launch] ++
    [.connect { service := ascii "install-create" }, .read,
      .connect { service := ascii "install-write", blocks := some 2 },
      .copy true, .copy true, .copy true, .read,
      .connect { service := ascii "install-commit", last := true }].take n

def round (observation : Observation) : List Action :=
  looks ++ [.operation (.resume { observation })]

-- A transfer takes too long while the file is being copied.
theorem give_up_releases_copy : ∃ s env s', GivesUp { transfer := { total := 1 } } .transferTimeout
    s env s' ∧ s.isReleasable ∧ Released s' := by
  have ⟨s, s', hs, gives⟩ := exists_givesUp { transfer := { total := 1 } } .transferTimeout
    (some (.copying 1)) (sampleWorker 4 ++ looks)
    { observation := { now := 1, transferring := true, lastProgress := 1 } } (by decide +kernel)
  have releasable : s.isReleasable := by simp [isReleasable, hs]
  exact ⟨s, _, s', gives, releasable, (give_up_releases_iff _ s s' _ gives.runs gives.step
    gives.waits gives.gives).mpr releasable⟩

theorem exists_stuck (timeout : InstallTimeout) (reason : GiveUp) (before : List Action) (env : Env)
    (h : (exec next (initial (.install {} timeout 0)) before).any fun s =>
      !hasGivenUp s.operation.point && s.stage == some .reading &&
      (s.next (.operation (.resume env))).any fun s' =>
        hasGivenUp s'.operation.point && reasonOf s'.operation.point == some reason) :
    ∃ s env s', GivesUp timeout reason s env s' ∧ s'.stage = some .reading ∧ ¬Released s' := by
  have ⟨s, s', hs, gives⟩ := exists_givesUp timeout reason _ before env h
  have hs' : s'.stage = some .reading := by
    rw [← hs, stage, give_up_worker gives.step gives.waits gives.gives, stage]
  have joined : Joined s' := (Joined.of_run gives.runs).next gives.step
  exact ⟨s, env, s', gives, hs', by simp [released_iff joined, isReleasable, hs']⟩

-- The device does not answer to the creation of the session, to the file or to the commit; it is
-- lost while it commits; and the operation is cancelled then.
theorem give_up_leaves_worker :
    (∃ s env s', GivesUp {} .createTimeout s env s' ∧ s'.stage = some .reading ∧ ¬Released s') ∧
    (∃ s env s', GivesUp { transfer := { total := 1 } } .transferTimeout s env s' ∧
      s'.stage = some .reading ∧ ¬Released s') ∧
    (∃ s env s', GivesUp { transfer := { stall := 1 } } .transferStalled s env s' ∧
      s'.stage = some .reading ∧ ¬Released s') ∧
    (∃ s env s', GivesUp {} .commitTimeout s env s' ∧ s'.stage = some .reading ∧ ¬Released s') ∧
    (∃ s env s', GivesUp { commitHealthcheckFailures := 1 } .deviceLost s env s' ∧
      s'.stage = some .reading ∧ ¬Released s') ∧
    ∃ s env s', GivesUp {} (.canceled false .commit) s env s' ∧ s'.stage = some .reading ∧
      ¬Released s' := by
  refine ⟨?create, ?total, ?stall, ?commit, ?health, ?cancel⟩
  case create =>
    apply exists_stuck _ _ (sampleWorker 1 ++ looks) { observation := { now := 30000 } }
    decide +kernel
  case total =>
    apply exists_stuck _ _ (sampleWorker 6 ++ looks)
      { observation := { now := 1, transferring := true, lastProgress := 1 } }
    decide +kernel
  case stall =>
    apply exists_stuck _ _ (sampleWorker 6 ++ looks)
      { observation := { now := 1, transferring := true } }
    decide +kernel
  case commit =>
    apply exists_stuck _ _ (sampleWorker 8 ++ round { now := 1000, transferring := true } ++ looks)
      { observation := { now := 901000, transferring := true } }
    decide +kernel
  case health =>
    apply exists_stuck _ _ (sampleWorker 8 ++ round { now := 1000, transferring := true } ++ looks)
      { observation := { now := 11000, transferring := true, alive := false } }
    decide +kernel
  case cancel =>
    apply exists_stuck _ _ (sampleWorker 8 ++ round { now := 1000, transferring := true } ++
      [.operation (.cancel true false)] ++ looks) {}
    decide +kernel

end Activity

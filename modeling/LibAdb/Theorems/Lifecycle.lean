import LibAdb.Execution.Lifecycle
import LibAdb.Machine.Operation

def EventType.isLifecycle : EventType → Bool
  | .operationStarted | .operationFinished | .operationTimeout | .operationCanceled
  | .operationFailed => true
  | _ => false

namespace Lifecycle

open OperationContext (terminal)
open Operation (Fits modifyInner)

-- The first and last events of an operation among those given.
def tell (events : List Event) (i : Nat) : List (EventType × Status) :=
  (events.filter fun e => e.op == i && e.type.isLifecycle).map fun e => (e.type, e.status)

def story (l : Lifecycle) : Nat → List (EventType × Status) :=
  tell l.published

-- The events of an operation that has returned.
def whole (r : Result) : List (EventType × Status) :=
  [(.operationStarted, .ok), (terminal r.status, r.status)]

def returned : Point → Option Result
  | .done r => some r
  | _ => none

-- The events that the operation has to have published.
def due (l : Lifecycle) : List (EventType × Status) :=
  if l.started then ((returned l.operation.point).map whole).getD [(.operationStarted, .ok)] else []

structure Tells (l : Lifecycle) (i : Nat) (events : List (EventType × Status)) : Prop where
  positive : 0 < i
  taken    : i ≤ l.counter
  own      : i ∉ l.others
  story    : l.story i = events

structure Told (l : Lifecycle) : Prop where
  mask    : ∀ type, EventType.isIn l.mask type
  fits    : Fits l.operation
  others  : ∀ i ∈ l.others, i ≤ l.counter
  fresh   : ∀ i, l.counter < i → l.story i = []
  created : l.started → l.context.isSome
  waiting : l.started = false → returned l.operation.point = none
  begun   : isRemoving l.operation.point → l.started
  nested  : l.nested.isSome = isRemoving l.operation.point
  outer   : ∀ c, l.context = some c → Tells l c.id l.due
  inner   : ∀ n, l.nested = some n → Tells l n.id [(.operationStarted, .ok)] ∧
    ∀ c, l.context = some c → c.id ≠ n.id
  past    : ∀ x ∈ l.removals, Tells l x.1 (whole x.2) ∧
    (∀ c, l.context = some c → c.id ≠ x.1) ∧ ∀ n, l.nested = some n → n.id ≠ x.1

variable {l l' : Lifecycle} {c n : OperationContext} {i : Nat} {events : List Event}
  {a : Action} {env : Env} {o o' : Operation} {s : List (EventType × Status)}

theorem tell_cons {e : Event} :
    tell (e :: events) i =
      (if e.op = i ∧ e.type.isLifecycle then [(e.type, e.status)] else []) ++ tell events i := by
  by_cases h : e.op = i ∧ e.type.isLifecycle
  all_goals simp [tell, h]

theorem tell_start : tell [c.start] i = if c.id = i then [(.operationStarted, .ok)] else [] := by
  have none : tell [] i = [] := rfl
  rw [tell_cons, none, List.append_nil]
  simp [OperationContext.start, OperationContext.make, EventType.isLifecycle]

theorem isLifecycle_terminal (status : Status) : (terminal status).isLifecycle := by
  cases status <;> rfl

theorem tell_finish {r : Result} {bytes : Nat} :
    tell (c.finish r bytes) i = if c.id = i then [(terminal r.status, r.status)] else [] := by
  have stats : tell (if bytes > 0 then [{ c.make .operationStats with
      phase := r.phase, status := r.status, bytesDone := bytes }] else []) i = [] := by
    split <;> simp [tell, OperationContext.make, EventType.isLifecycle]
  rw [OperationContext.finish, tell_cons, stats]
  simp [OperationContext.make, isLifecycle_terminal]

theorem tell_note {note : OperationContext.Note} : tell (c.note note).2 i = [] := by
  cases note
  case phase p =>
    by_cases h : p = c.phase <;>
      simp [tell, OperationContext.note, h, OperationContext.make, EventType.isLifecycle]
  all_goals simp [tell, OperationContext.note, OperationContext.make, EventType.isLifecycle]

theorem note_id {note : OperationContext.Note} : (c.note note).1.id = c.id := by
  cases note
  case phase p =>
    by_cases h : p = c.phase <;> simp [OperationContext.note, h, OperationContext.setPhase]
  all_goals rfl

theorem tell_foreign {e : Event} (hf : l.isForeign e) (h₀ : 0 < i) (ho : i ∉ l.others) :
    tell [e] i = [] := by
  simp only [isForeign, Bool.or_eq_true, beq_iff_eq, List.contains_iff_mem] at hf
  rcases hf with (h | h) | h
  case inl.inl => simp [tell, h, Nat.ne_of_lt h₀]
  case inl.inr =>
    have : e.op ≠ i := fun he => ho (he ▸ h)
    simp [tell, this]
  case inr => simp [tell, h, EventType.isLifecycle]

theorem story_publish (hm : ∀ type, EventType.isIn l.mask type) :
    (l.publish events).story i = l.story i ++ tell events i := by
  have all : events.filter (·.type.isIn l.mask) = events :=
    List.filter_eq_self.mpr fun e _ => hm e.type
  simp [story, publish, tell, all]

theorem Tells.mono (h : Tells l i s) (hc : l.counter ≤ l'.counter) (ho : l'.others = l.others)
    (hp : l'.published = l.published) : Tells l' i s where
  positive := h.positive
  taken := Nat.le_trans h.taken hc
  own := ho ▸ h.own
  story := by
    rw [Lifecycle.story, hp]
    exact h.story

theorem Tells.publish (events : List Event) (h : Tells l i s) (hm : ∀ type, EventType.isIn l.mask type) :
    Tells (l.publish events) i (s ++ tell events i) where
  positive := h.positive
  taken := h.taken
  own := h.own
  story := by rw [story_publish hm, h.story]

theorem Tells.keep (h : Tells l i s) (hm : ∀ type, EventType.isIn l.mask type)
    (he : tell events i = []) : Tells (l.publish events) i s := by
  have := h.publish events hm
  rwa [he, List.append_nil] at this

theorem modifyInner_kind {p : Point} {f : CancelFlag → CancelFlag} :
    returned (modifyInner f p) = returned p ∧ isRemoving (modifyInner f p) = isRemoving p := by
  unfold modifyInner
  split <;> exact ⟨rfl, rfl⟩

theorem next_kind {a : Operation.Action} (h : o.next a = some o') (ha : resumes a = false) :
    returned o'.point = returned o.point ∧ isRemoving o'.point = isRemoving o.point := by
  cases a <;> simp only [Operation.next, Option.ite_none_left_eq_some, Option.some.injEq,
    Option.map_eq_some_iff] at h
  case mark =>
    obtain ⟨_, rfl⟩ := h
    exact modifyInner_kind
  case cancel =>
    obtain ⟨_, rfl⟩ := h
    exact modifyInner_kind
  case resume => cases ha
  case work =>
    obtain ⟨p, hp, rfl⟩ := h
    obtain ⟨trial, a, hq, _, rfl⟩ := Operation.endWorker_attempt hp
    rw [hq]
    exact ⟨rfl, rfl⟩
  case receive =>
    obtain ⟨_, _, rfl⟩ := h
    exact ⟨rfl, rfl⟩
  case hangup =>
    obtain ⟨_, _, rfl⟩ := h
    exact ⟨rfl, rfl⟩
  case read =>
    obtain ⟨_, _, rfl⟩ := h
    exact ⟨rfl, rfl⟩

-- Where the thread of the operation goes: it returns, the uninstallation does, or neither.
inductive Goes (env : Env) : Point → Point → Prop
  | finish : Goes env (.finish r) (.done r)
  | leave : removed env p = some r → returned p' = none → isRemoving p' = false → Goes env p p'
  | go : (∀ r, p ≠ .finish r) → removed env p = none → returned p' = none →
    (isRemoving p → isRemoving p') → Goes env p p'

theorem transfer_goes {j : Job} {f : CancelFlag} {p : TransferPoint} :
    Goes env (.transfer p) (Operation.nextTransfer j f env p) := by
  refine .go nofun rfl ?_ nofun
  rcases Operation.nextTransfer_cases with ⟨p', h⟩ | ⟨r, h⟩
  all_goals
    rw [h]
    rfl

theorem shell_goes {j : Job} {f : CancelFlag} {x : Option AdbSession} {p : ShellPoint} :
    Goes env (.shell p) (Operation.nextShell j f env x p).1 := by
  refine .go nofun rfl ?_ nofun
  cases p <;> rfl

theorem afterRemoval_kind {r removed : Result} {package : Bytes} :
    returned (Operation.afterRemoval r package removed) = none ∧
      isRemoving (Operation.afterRemoval r package removed) = false := by
  unfold Operation.afterRemoval
  split <;> exact ⟨rfl, rfl⟩

theorem install_goes {options : InstallOptions} {timeout : InstallTimeout} {removal : Int}
    {f : CancelFlag} {x : Option AdbSession} {p : InstallPoint} :
    Goes env (.install p) (Operation.nextInstall options timeout removal f env x p).1 := by
  cases p
  case arguments =>
    refine .go nofun rfl ?_ nofun
    simp only [Operation.nextInstall]
    split <;> rfl
  case prepare =>
    refine .go nofun rfl ?_ nofun
    simp only [Operation.nextInstall]
    split <;> rfl
  case attempt trial a =>
    refine .go nofun rfl ?_ nofun
    simp only [Operation.nextInstall]
    split
    case h_1 => cases trial <;> rfl
    case h_2 => rfl
  case downgrade r =>
    refine .go nofun rfl ?_ nofun
    simp only [Operation.nextInstall]
    split <;> rfl
  case conflict r =>
    refine .go nofun rfl ?_ nofun
    simp only [Operation.nextInstall, Operation.nextConflict]
    split
    case isTrue => split <;> rfl
    case isFalse => rfl
  case removing r package inner p =>
    simp only [Operation.nextInstall]
    cases p
    case none =>
      simp only [Operation.nextRemoval]
      by_cases h : env.online
      case pos =>
        rw [if_pos h]
        exact .go nofun (if_pos h) rfl (fun _ => rfl)
      case neg =>
        rw [if_neg h]
        exact .leave (if_neg h) afterRemoval_kind.left afterRemoval_kind.right
    case some p =>
      cases p
      case done => exact .leave rfl afterRemoval_kind.left afterRemoval_kind.right
      all_goals exact .go nofun rfl rfl (fun _ => rfl)

theorem resume_goes (h : returned o.point = none) (hf : Fits o) :
    Goes env o.point (o.resume env).1 := by
  obtain ⟨j, f, p, x⟩ := o
  cases p
  case online =>
    refine .go (by rintro r ⟨⟩) rfl ?_ (by rintro ⟨⟩)
    simp only [Operation.resume]
    split
    case isTrue => cases j <;> rfl
    case isFalse => rfl
  case file =>
    refine .go (by rintro r ⟨⟩) rfl ?_ (by rintro ⟨⟩)
    simp only [Operation.resume]
    split <;> rfl
  case transfer => exact transfer_goes
  case shell => exact shell_goes
  case install p =>
    obtain ⟨options, timeout, removal, rfl⟩ := hf p rfl
    exact install_goes
  case finish => exact .finish
  case done => cases h

namespace Told

theorem tells_of_other (h : Tells l i s) :
    Tells { l with others := l.others ++ [l.counter + 1], counter := l.counter + 1 } i s where
  positive := h.positive
  taken := Nat.le_succ_of_le h.taken
  own hi := by
    rcases List.mem_append.mp hi with hi | hi
    case inl => exact h.own hi
    case inr => exact absurd (List.mem_singleton.mp hi ▸ h.taken) (Nat.not_succ_le_self _)
  story := h.story

theorem other (h : Told l) :
    Told { l with others := l.others ++ [l.counter + 1], counter := l.counter + 1 } where
  mask := h.mask
  fits := h.fits
  others i hi := by
    rcases List.mem_append.mp hi with hi | hi
    case inl => exact Nat.le_succ_of_le (h.others i hi)
    case inr => exact Nat.le_of_eq (List.mem_singleton.mp hi)
  fresh i hi := h.fresh i (Nat.lt_of_succ_lt hi)
  created := h.created
  waiting := h.waiting
  begun := h.begun
  nested := h.nested
  outer c hc := tells_of_other (h.outer c hc)
  inner n hn := ⟨tells_of_other (h.inner n hn).left, (h.inner n hn).right⟩
  past x hx := ⟨tells_of_other (h.past x hx).left, (h.past x hx).right⟩

theorem publish (h : Told l) (hs : ∀ i s, Tells l i s → tell events i = [])
    (hf : ∀ i, l.counter < i → tell events i = []) : Told (l.publish events) where
  mask := h.mask
  fits := h.fits
  others := h.others
  fresh i hi := by
    rw [story_publish h.mask, hf i hi, List.append_nil]
    exact h.fresh i hi
  created := h.created
  waiting := h.waiting
  begun := h.begun
  nested := h.nested
  outer c hc := (h.outer c hc).keep h.mask (hs _ _ (h.outer c hc))
  inner n hn :=
    ⟨(h.inner n hn).left.keep h.mask (hs _ _ (h.inner n hn).left), (h.inner n hn).right⟩
  past x hx :=
    ⟨(h.past x hx).left.keep h.mask (hs _ _ (h.past x hx).left), (h.past x hx).right⟩

theorem foreign {e : Event} (h : Told l) (hf : l.isForeign e) : Told (l.publish [e]) := by
  refine h.publish (fun i s hi => tell_foreign hf hi.positive hi.own) fun i hi => ?_
  refine tell_foreign hf (Nat.zero_lt_of_lt hi) fun ho => ?_
  exact absurd (h.others i ho) (Nat.not_le_of_lt hi)

theorem ne_succ (h : Tells l i s) : l.counter + 1 ≠ i :=
  fun he => absurd (he ▸ h.taken) (Nat.not_succ_le_self _)

theorem not_nested (h : Told l) (hs : l.started = false) : l.nested = none := by
  cases hn : l.nested
  case none => rfl
  case some =>
    have := h.begun (h.nested.symm.trans (congrArg Option.isSome hn))
    exact absurd this (Bool.eq_false_iff.mp hs)

theorem create (h : Told l) (hc : l.context = none) :
    Told { l with
      context := some { id := l.counter + 1, serial := l.serial }, counter := l.counter + 1 } := by
  have waits : l.started = false := by
    refine Bool.eq_false_iff.mpr fun hs => ?_
    have := h.created hs
    rw [hc] at this
    cases this
  have none := h.not_nested waits
  exact {
    mask := h.mask
    fits := h.fits
    others := fun i hi => Nat.le_succ_of_le (h.others i hi)
    fresh := fun i hi => h.fresh i (Nat.lt_of_succ_lt hi)
    created := fun _ => rfl
    waiting := h.waiting
    begun := h.begun
    nested := h.nested
    outer := by
      rintro c ⟨⟩
      have due : l.due = [] := by simp [Lifecycle.due, waits]
      refine ⟨Nat.succ_pos _, Nat.le_refl _, fun ho => ?_, ?_⟩
      · exact absurd (h.others _ ho) (Nat.not_succ_le_self _)
      · exact (h.fresh _ (Nat.lt_succ_self _)).trans due.symm
    inner := fun n hn => nomatch none.symm.trans hn
    past := by
      intro x hx
      have ⟨tells, _, inner⟩ := h.past x hx
      refine ⟨tells.mono (Nat.le_succ _) rfl rfl, ?_, inner⟩
      rintro c ⟨⟩
      exact ne_succ tells }

theorem start (h : Told l) (hs : l.started = false) (hc : l.context = some c) :
    Told ({ l with started := true }.publish [c.start]) := by
  have none := h.not_nested hs
  have own := h.outer c hc
  have moved {i : Nat} {s} (ht : Tells l i s) : Tells { l with started := true } i s :=
    ht.mono (Nat.le_refl _) rfl rfl
  exact {
    mask := h.mask
    fits := h.fits
    others := h.others
    fresh := by
      intro i hi
      have other : c.id ≠ i := Nat.ne_of_lt (Nat.lt_of_le_of_lt own.taken hi)
      refine (story_publish h.mask).trans ?_
      rw [tell_start, if_neg other, List.append_nil]
      exact h.fresh i hi
    created := fun _ => by simp [Lifecycle.publish, hc]
    waiting := fun hw => by cases hw
    begun := fun _ => rfl
    nested := h.nested
    outer := by
      intro c' hc'
      cases hc.symm.trans hc'
      have tells := (moved own).publish [c.start] h.mask
      have before : l.due = [] := by simp [Lifecycle.due, hs]
      have after : Lifecycle.due ({ l with started := true }.publish [c.start]) =
          [(.operationStarted, .ok)] := by
        simp [Lifecycle.due, Lifecycle.publish, h.waiting hs]
      rw [before, tell_start, if_pos rfl, List.nil_append] at tells
      exact after ▸ tells
    inner := fun n hn => nomatch none.symm.trans hn
    past := by
      intro x hx
      have ⟨tells, outer, inner⟩ := h.past x hx
      refine ⟨(moved tells).keep h.mask ?_, outer, inner⟩
      rw [tell_start, if_neg (outer c hc)] }

theorem note {inside : Bool} {note : OperationContext.Note} (h : Told l)
    (hn : l.note inside note = some l') : Told l' := by
  unfold Lifecycle.note at hn
  split at hn
  all_goals
    obtain ⟨c, hc, rfl⟩ := Option.map_eq_some_iff.mp hn
    refine Told.publish ?_ (fun _ _ _ => tell_note) fun _ _ => tell_note
  case isTrue =>
    exact { h with
      nested := by
        rw [← h.nested, hc]
        rfl
      outer := fun c hc => (h.outer c hc).mono (Nat.le_refl _) rfl rfl
      inner := by
        rintro n ⟨⟩
        rw [note_id]
        exact ⟨(h.inner c hc).left.mono (Nat.le_refl _) rfl rfl, (h.inner c hc).right⟩
      past := by
        intro x hx
        have ⟨tells, outer, inner⟩ := h.past x hx
        refine ⟨tells.mono (Nat.le_refl _) rfl rfl, outer, ?_⟩
        rintro n ⟨⟩
        rw [note_id]
        exact inner c hc }
  case isFalse =>
    exact { h with
      created := fun _ => rfl
      outer := by
        rintro n ⟨⟩
        rw [note_id]
        exact (h.outer c hc).mono (Nat.le_refl _) rfl rfl
      inner := by
        intro n hn
        have ⟨tells, outer⟩ := h.inner n hn
        refine ⟨tells.mono (Nat.le_refl _) rfl rfl, ?_⟩
        rintro c' ⟨⟩
        rw [note_id]
        exact outer c hc
      past := by
        intro x hx
        have ⟨tells, outer, inner⟩ := h.past x hx
        refine ⟨tells.mono (Nat.le_refl _) rfl rfl, ?_, inner⟩
        rintro c' ⟨⟩
        rw [note_id]
        exact outer c hc }

theorem advance (h : Told l) (hf : Fits o) (hr : returned o.point = returned l.operation.point)
    (hi : isRemoving o.point = isRemoving l.operation.point) : Told { l with operation := o } := by
  have due : Lifecycle.due { l with operation := o } = l.due := by
    rw [Lifecycle.due, hr]
    rfl
  exact { h with
    fits := hf
    waiting := fun hs => hr.trans (h.waiting hs)
    begun := fun hb => h.begun (hi ▸ hb)
    nested := h.nested.trans hi.symm
    outer := fun c hc => due.symm ▸ (h.outer c hc).mono (Nat.le_refl _) rfl rfl
    inner := fun n hn =>
      ⟨(h.inner n hn).left.mono (Nat.le_refl _) rfl rfl, (h.inner n hn).right⟩
    past := fun x hx => ⟨(h.past x hx).left.mono (Nat.le_refl _) rfl rfl, (h.past x hx).right⟩ }

theorem due_running (hs : l.started) (hr : returned l.operation.point = none) :
    l.due = [(.operationStarted, .ok)] := by
  simp [Lifecycle.due, hs, hr]

theorem finish {r : Result} (h : Told l) (hf : Fits o) (hs : l.started) (hc : l.context = some c)
    (hp : l.operation.point = .finish r) (hp' : o.point = .done r) :
    Told ({ l with operation := o }.publish (c.finish r bytes)) := by
  have own := h.outer c hc
  have none : l.nested = none := by
    have := h.nested
    rw [hp] at this
    exact Option.isSome_eq_false_iff.mp this |> Option.isNone_iff_eq_none.mp
  rw [due_running hs (by rw [hp]; rfl)] at own
  have moved {i : Nat} {s} (ht : Tells l i s) : Tells { l with operation := o } i s :=
    ht.mono (Nat.le_refl _) rfl rfl
  exact { h with
    fits := hf
    fresh := by
      intro i hi
      have other : c.id ≠ i := Nat.ne_of_lt (Nat.lt_of_le_of_lt own.taken hi)
      refine (story_publish h.mask).trans ?_
      rw [tell_finish, if_neg other, List.append_nil]
      exact h.fresh i hi
    waiting := fun hw => absurd hs (Bool.eq_false_iff.mp hw)
    begun := fun _ => hs
    nested := by
      change l.nested.isSome = isRemoving o.point
      rw [none, hp']
      rfl
    outer := by
      intro c' hc'
      cases hc.symm.trans hc'
      have tells := (moved own).publish (c.finish r bytes) h.mask
      have after : Lifecycle.due ({ l with operation := o }.publish (c.finish r bytes)) = whole r := by
        simp [Lifecycle.due, Lifecycle.publish, hs, hp', returned]
      rw [tell_finish, if_pos rfl] at tells
      exact after ▸ tells
    inner := fun n hn => nomatch none.symm.trans hn
    past := by
      intro x hx
      have ⟨tells, outer, inner⟩ := h.past x hx
      refine ⟨(moved tells).keep h.mask ?_, outer, inner⟩
      rw [tell_finish, if_neg (outer c hc)] }

theorem leave {r : Result} (h : Told l) (hf : Fits o) (hs : l.started) (hn : l.nested = some n)
    (hr : returned l.operation.point = none) (hr' : returned o.point = none)
    (hi : isRemoving o.point = false) :
    Told ({ l with
      operation := o, nested := none, removals := l.removals ++ [(n.id, r)] }.publish
        (n.finish r 0)) := by
  have ⟨own, other⟩ := h.inner n hn
  let l' := { l with operation := o, nested := none, removals := l.removals ++ [(n.id, r)] }
  have moved {i : Nat} {s} (ht : Tells l i s) : Tells l' i s := ht.mono (Nat.le_refl _) rfl rfl
  exact { h with
    fits := hf
    fresh := by
      intro i hi
      have other : n.id ≠ i := Nat.ne_of_lt (Nat.lt_of_le_of_lt own.taken hi)
      refine (story_publish h.mask).trans ?_
      rw [tell_finish, if_neg other, List.append_nil]
      exact h.fresh i hi
    waiting := fun hw => absurd hs (Bool.eq_false_iff.mp hw)
    begun := fun _ => hs
    nested := hi.symm
    outer := by
      intro c hc
      have tells := h.outer c hc
      have due := due_running (l := l'.publish (n.finish r 0)) hs hr'
      rw [due_running hs hr] at tells
      change Tells (l'.publish (n.finish r 0)) c.id (l'.publish (n.finish r 0)).due
      rw [due]
      refine (moved tells).keep h.mask ?_
      rw [tell_finish, if_neg (other c hc).symm]
    inner := nofun
    past := by
      intro x hx
      rcases List.mem_append.mp hx with hx | hx
      case inl =>
        have ⟨tells, outer, inner⟩ := h.past x hx
        refine ⟨(moved tells).keep h.mask ?_, outer, nofun⟩
        rw [tell_finish, if_neg (inner n hn)]
      case inr =>
        rw [List.mem_singleton.mp hx]
        have tells := (moved own).publish (n.finish r 0) h.mask
        rw [tell_finish, if_pos rfl] at tells
        exact ⟨tells, other, nofun⟩ }

theorem enter (h : Told l) (hf : Fits o) (hs : l.started)
    (hr : returned l.operation.point = none) (hr' : returned o.point = none)
    (hi : isRemoving o.point) (hn : n.id = l.counter + 1) :
    Told ({ l with operation := o, nested := some n, counter := l.counter + 1 }.publish
      [n.start]) := by
  let l' := { l with operation := o, nested := some n, counter := l.counter + 1 }
  have moved {i : Nat} {s} (ht : Tells l i s) : Tells (l'.publish [n.start]) i s := by
    have moved : Tells l' i s := ht.mono (Nat.le_succ _) rfl rfl
    refine moved.keep h.mask ?_
    rw [tell_start, hn, if_neg (ne_succ ht)]
  exact { h with
    fits := hf
    others := fun i hi => Nat.le_succ_of_le (h.others i hi)
    fresh := by
      intro i hi
      have hi : l.counter + 1 < i := hi
      refine (story_publish h.mask).trans ?_
      rw [tell_start, hn, if_neg (Nat.ne_of_lt hi), List.append_nil]
      exact h.fresh i (Nat.lt_of_succ_lt hi)
    waiting := fun hw => absurd hs (Bool.eq_false_iff.mp hw)
    begun := fun _ => hs
    nested := hi.symm
    outer := by
      intro c hc
      have tells := h.outer c hc
      have due := due_running (l := l'.publish [n.start]) hs hr'
      rw [due_running hs hr] at tells
      change Tells (l'.publish [n.start]) c.id (l'.publish [n.start]).due
      rw [due]
      exact moved tells
    inner := by
      rintro n' ⟨⟩
      refine ⟨⟨hn ▸ Nat.succ_pos _, hn ▸ Nat.le_refl _, fun ho => ?_, ?_⟩, fun c hc => ?_⟩
      · exact absurd (hn ▸ h.others _ ho) (Nat.not_succ_le_self _)
      · refine (story_publish h.mask).trans ?_
        rw [tell_start, if_pos rfl]
        have := h.fresh n.id (hn ▸ Nat.lt_succ_self _)
        exact congrArg (· ++ _) this
      · exact fun he => ne_succ (h.outer c hc) (hn.symm.trans he.symm)
    past := by
      intro x hx
      have ⟨tells, outer, _⟩ := h.past x hx
      refine ⟨moved tells, outer, ?_⟩
      rintro n' ⟨⟩
      exact hn ▸ ne_succ tells }

theorem removed_removing {p : Point} {r : Result} (h : removed env p = some r) : isRemoving p := by
  unfold removed at h
  split at h
  case h_1 => rfl
  case h_2 => rfl
  case h_3 => cases h

theorem follow (h : Told l) (hs : l.started) (hf : Fits o)
    (running : returned l.operation.point = none) (hg : Goes env l.operation.point o.point) :
    Told ({ l with operation := o }.follow env bytes l.operation.point o.point) := by
  generalize hp : l.operation.point = p at hg
  generalize hp' : o.point = p' at hg
  cases hg
  case finish r =>
    have ⟨c, hc⟩ := Option.isSome_iff_exists.mp (h.created hs)
    simp only [Lifecycle.follow, hc]
    exact hc ▸ h.finish hf hs hc hp hp'
  case leave r hr hd hi =>
    have removing := removed_removing hr
    have ⟨n, hn⟩ := Option.isSome_iff_exists.mp (h.nested.trans (hp ▸ removing))
    have left := h.leave (r := r) hf hs hn running (hp' ▸ hd) (hp' ▸ hi)
    unfold Lifecycle.follow
    split
    case h_1 => cases removing
    case h_2 => simpa only [hr, hn] using left
  case go hne hr hd hi =>
    unfold Lifecycle.follow
    split
    case h_1 r => exact absurd rfl (hne r)
    case h_2 =>
      simp only [hr]
      subst hp hp'
      split
      case isTrue hr =>
        rw [Bool.and_eq_true] at hr
        exact h.enter hf hs running hd hr.left rfl
      case isFalse hr =>
        refine h.advance hf (hd.trans running.symm) ?_
        cases ho : isRemoving l.operation.point
        case false => simpa [ho] using hr
        case true => exact hi ho

theorem next (h : Told l) (hn : l.next a = some l') : Told l' := by
  cases a
  case other =>
    cases hn
    exact h.other
  case publish e =>
    simp only [Lifecycle.next, Option.ite_none_right_eq_some, Option.some.injEq] at hn
    obtain ⟨hf, rfl⟩ := hn
    exact h.foreign hf
  case create =>
    simp only [Lifecycle.next, Option.ite_none_left_eq_some, Option.some.injEq] at hn
    obtain ⟨hc, rfl⟩ := hn
    exact h.create (by simpa using hc)
  case start =>
    simp only [Lifecycle.next, Option.ite_none_left_eq_some, Option.map_eq_some_iff] at hn
    obtain ⟨hs, c, hc, rfl⟩ := hn
    exact h.start (Bool.eq_false_iff.mpr hs) hc
  case note nested note => exact h.note hn
  case step a bytes =>
    simp only [Lifecycle.next, Option.ite_none_left_eq_some, Option.map_eq_some_iff] at hn
    obtain ⟨hs, o, ho, rfl⟩ := hn
    have fits := h.fits.next ho
    cases a
    case resume env =>
      have hs : l.started := by simpa [resumes] using hs
      simp only [Operation.next, Option.ite_none_left_eq_some, Option.some.injEq] at ho
      obtain ⟨hd, rfl⟩ := ho
      have running : returned l.operation.point = none := by
        cases hp : l.operation.point <;> first | rfl | simp [hp, Operation.isDone] at hd
      exact h.follow hs fits running (resume_goes running h.fits)
    all_goals
      obtain ⟨hr, hi⟩ := next_kind ho rfl
      exact h.advance fits hr hi

end Told

theorem Told.initial {m : UInt64} (hm : ∀ type, EventType.isIn m type) (device : Bytes) (j : Job) :
    Told (initial m device j) where
  mask := hm
  fits := .start j
  others := nofun
  fresh _ _ := rfl
  created := nofun
  waiting _ := by cases j <;> rfl
  begun h := by cases j <;> cases h
  nested := by cases j <;> rfl
  outer := nofun
  inner := nofun
  past := nofun

-- An operation that has returned has published its start and then one last event, of the type and
-- status of its result; until then there is no last event. The same holds of the uninstallation
-- before a reinstall, which has an id of its own.
theorem operation_events {m : UInt64} {device : Bytes} (hm : ∀ type, EventType.isIn m type)
    (h : Runs (fun _ _ => True) (initial m device j) l) :
    (∀ r, l.operation.point = .done r → ∃ c, l.context = some c ∧
      l.story c.id = [(.operationStarted, .ok), (terminal r.status, r.status)]) ∧
    (∀ c, l.context = some c → l.story c.id = l.due) ∧
    ∀ x ∈ l.removals, (∀ c, l.context = some c → c.id ≠ x.1) ∧
      l.story x.1 = [(.operationStarted, .ok), (terminal x.2.status, x.2.status)] := by
  have told : Told l := h.invariant (fun _ _ _ _ hn h => h.next hn) (.initial hm device j)
  refine ⟨fun r hr => ?_, fun c hc => (told.outer c hc).story, fun x hx => ?_⟩
  · have started : l.started := by
      by_contra hs
      have := told.waiting (Bool.eq_false_iff.mpr hs)
      rw [hr] at this
      cases this
    have ⟨c, hc⟩ := Option.isSome_iff_exists.mp (told.created started)
    have due : l.due = whole r := by simp [due, started, hr, returned]
    exact ⟨c, hc, (told.outer c hc).story.trans due⟩
  · have ⟨tells, outer, _⟩ := told.past x hx
    exact ⟨outer, tells.story⟩

def conflictingJob : Job :=
  .install { onConflict := .reinstall, packageName := ascii "a" } {} 0

-- The uninstallation before a reinstall finds the device lost, next to another operation.
theorem operation_events_of_reinstall :
    ∃ l c, Runs (fun _ _ => True) (initial 0xffffffff [] conflictingJob) l ∧
      l.context = some c ∧ c.id = 2 ∧
      l.story 2 = [(.operationStarted, .ok), (.operationFailed, .signatureMismatch)] ∧
      l.removals.map (·.1) = [3] ∧
      l.story 3 = [(.operationStarted, .ok), (.operationFailed, .deviceLost)] := by
  have run : (exec next (initial 0xffffffff [] conflictingJob) (List.flatten [[.other, .create,
      .start, .publish { type := .operationFinished, op := 1 }],
    List.replicate 3 (.step (.resume {}) 0),
    [.step (.work false (ascii "Failure [INSTALL_FAILED_UPDATE_INCOMPATIBLE]")) 0],
    List.replicate 4 (.step (.resume {}) 0),
    [.note true (.phase .transfer), .step (.resume { online := false }) 0,
      .step (.resume {}) 5]])).any fun l =>
        (returned l.operation.point).any (·.status == .signatureMismatch) &&
        (l.context.map (·.id)) == some 2 && l.removals.map (fun x => (x.1, x.2.status)) ==
          [(3, .deviceLost)] := by
    decide +kernel
  simp only [Option.any_eq_true, Bool.and_eq_true, beq_iff_eq, Option.map_eq_some_iff] at run
  obtain ⟨l, hl, ⟨⟨r, hr, failed⟩, c, hc, hi⟩, removals⟩ := run
  have h : Runs (fun _ _ => True) (initial 0xffffffff [] conflictingJob) l := .of_exec hl
  have all : ∀ type, EventType.isIn 0xffffffff type := by
    intro type
    cases type <;> decide
  have ⟨own, _, nested⟩ := operation_events all h
  have done : l.operation.point = .done r := by
    cases hp : l.operation.point <;> rw [hp] at hr <;> cases hr
    rfl
  obtain ⟨c', hc', story⟩ := own r done
  cases hc.symm.trans hc'
  rw [failed, hi] at story
  obtain ⟨x, hx, he⟩ := List.map_eq_singleton_iff.mp removals
  obtain ⟨id, status⟩ := Prod.mk.inj he
  have removal := (nested x (by simp [hx])).right
  rw [id, status] at removal
  exact ⟨l, c, h, hc, hi, story, by simp [hx, id], removal⟩

end Lifecycle

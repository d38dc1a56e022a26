import LibAdb.Machine.Async

def AsyncCall.hands (op : Nat) : AsyncCall → Bool
  | .handed o => op == o
  | _ => false

namespace AsyncPool

variable {p p' : AsyncPool} {call call' : AsyncCall} {worker worker' : Worker} {k : Nat}

def Finishing (p : AsyncPool) (op : Nat) (rest : List Nat) : Prop :=
  0 < p.completed op ∨ ∃ w ∈ rest, ∃ t, p.threads[w]? = some t ∧ t.runs op

-- What a call of `stop` that was entered after the operation was handed out has to wait for.
def Awaits (p : AsyncPool) (op : Nat) : AsyncCall → Prop
  | .stop => True
  | .join rest => p.Finishing op rest
  | .stopped => p.Finishing op []
  | _ => False

theorem Resumes.completed_eq (h : p.Resumes call p' call') : p'.completed op = p.completed op := by
  cases h
  case create => exact completed_append rfl
  all_goals rfl

theorem Resumes.threads_mono {w : Nat} (h : p.Resumes call p' call') (hw : p.threads[w]? = some t) :
    p'.threads[w]? = some t := by
  cases h
  case configure =>
    exact (List.getElem?_append_left (List.getElem?_eq_some_iff.mp hw).choose).trans hw
  all_goals exact hw

theorem Resumes.ne_handed (h : p.Resumes call p' call') : .handed op ≠ call := by
  cases h <;> nofun

theorem Works.finishes (h : p.Works worker p' worker')
    (ho : ∀ op, worker.runs op → op < p.operations.length) (hr : worker.runs op) :
    worker'.runs op ∨ 0 < p'.completed op := by
  cases h
  case finished => exact .inl hr
  case batch o _ | complete o =>
    rw [completed_complete (ho o (beq_self_eq_true o)), eq_of_beq hr]
    simp
  case take | exit => cases hr

theorem Works.completed_le (h : p.Works worker p' worker')
    (ho : ∀ op, worker.runs op → op < p.operations.length) : p.completed op ≤ p'.completed op := by
  cases h
  case batch o _ | complete o =>
    rw [completed_complete (ho o (beq_self_eq_true o))]
    exact Nat.le_add_right ..
  all_goals exact Nat.le_refl _

namespace Finishing

theorem mono (h : p.Finishing op rest) (hc : p.completed op ≤ p'.completed op)
    (ht : ∀ {w : Nat} {t}, p.threads[w]? = some t → t.runs op →
      (∃ t', p'.threads[w]? = some t' ∧ t'.runs op) ∨ 0 < p'.completed op) :
    p'.Finishing op rest := by
  rcases h with h | ⟨w, hw, t, h, hr⟩
  · exact .inl (Nat.lt_of_lt_of_le h hc)
  · exact (ht h hr).symm.imp_right fun ht => ⟨w, hw, ht⟩

theorem work {w : Nat} (h : p.Finishing op rest) (hp : Placed p) (hw : p.threads[w]? = some worker)
    (hs : p.Works worker p' worker') :
    Finishing { p' with threads := p.threads.set w worker' } op rest := by
  have ho o (hr : worker.runs o) := hp.lt_of_runs (List.mem_of_getElem? hw) hr
  refine h.mono (hs.completed_le ho) fun {w' t} ht hr => ?_
  by_cases he : w = w'
  case pos =>
    subst he
    cases hw.symm.trans ht
    refine (hs.finishes ho hr).imp_left fun hr => ⟨worker', ?_, hr⟩
    exact List.getElem?_set_self (List.getElem?_eq_some_iff.mp hw).choose
  case neg => exact .inl ⟨t, (List.getElem?_set_ne he).trans ht, hr⟩

theorem steps (h : p.Finishing op rest) (hp : Placed p) (hs : p.Steps p') :
    p'.Finishing op rest := by
  cases hs
  case configure =>
    refine h.mono (Nat.le_refl _) fun {w t} ht hr => .inl ⟨t, ?_, hr⟩
    exact (List.getElem?_append_left (List.getElem?_eq_some_iff.mp ht).choose).trans ht
  case enter => exact h
  case cancel => exact h.mono (Nat.le_of_eq completed_cancel.symm) fun ht hr => .inl ⟨_, ht, hr⟩
  case resume hs _ _ =>
    refine h.mono (Nat.le_of_eq hs.completed_eq.symm) fun ht hr => .inl ⟨_, ?_, hr⟩
    exact hs.threads_mono ht
  case work hw hs => exact h.work hp hw hs

end Finishing

theorem countP_owns (op) (calls : List AsyncCall) : calls.countP (·.owns op) =
    calls.countP (·.carries op) + calls.countP (·.hands op) := by
  induction calls
  case nil => rfl
  case cons x xs ih =>
    have head : (if x.owns op then 1 else 0) =
        (if x.carries op then 1 else 0) + if x.hands op then 1 else 0 := by
      cases x <;> simp [AsyncCall.owns, AsyncCall.carries, AsyncCall.hands]
    simp only [List.countP_cons, ih]
    omega

theorem Placed.not_carried (h : Placed p) (ho : .handed op ∈ p.calls) :
    p.calls.countP (·.carries op) = 0 ∧ op < p.operations.length := by
  have split := countP_owns op p.calls
  have handed : 0 < p.calls.countP (·.hands op) :=
    List.countP_pos_iff.mpr ⟨_, ho, beq_self_eq_true _⟩
  have owners := h.owners op
  by_cases hl : op < p.operations.length
  · simp only [hl, decide_true, Bool.toNat_true] at owners
    exact ⟨by omega, hl⟩
  · simp only [hl, decide_false, Bool.toNat_false] at owners
    omega

theorem Placed.finishing (h : Placed p) (ho : .handed op ∈ p.calls) (hq : p.queue = [])
    (hj : ∀ x ∈ p.calls, ¬x.isJoining) : p.Finishing op p.workers := by
  have ⟨carried, hl⟩ := h.not_carried ho
  have places := h.places op
  simp only [carried, hq, hl, decide_true, Bool.toNat_true, List.count_nil] at places
  by_cases hc : 0 < p.completed op
  case pos => exact .inl hc
  case neg =>
    have : 0 < p.threads.countP (·.runs op) := by omega
    have ⟨t, ht, hr⟩ := List.countP_pos_iff.mp this
    have ⟨w, hw⟩ := List.mem_iff_getElem?.mp ht
    refine .inr ⟨w, (h.joined w t hw ?_).resolve_right fun ⟨x, hx, hm⟩ => hj x hx ?_, t, hw, hr⟩
    · rintro rfl
      cases hr
    · cases x
      case join => rfl
      all_goals cases hm

namespace Awaits

theorem steps (h : p.Awaits op call) (hp : Placed p) (hs : p.Steps p') : p'.Awaits op call := by
  cases call
  case join | stopped => exact Finishing.steps h hp hs
  all_goals exact h

theorem resume (h : p.Awaits op call) (hp : Placed p) (ho : .handed op ∈ p.calls)
    (hs : p.Resumes call p' call') (hq : call = .stop → p.queue = [])
    (hj : call = .stop → ∀ x ∈ p.calls, ¬x.isJoining) : p.Awaits op call' := by
  cases hs
  case idle hw =>
    have := hp.finishing ho (hq rfl) (hj rfl)
    rwa [hw] at this
  case stop => exact hp.finishing ho (hq rfl) (hj rfl)
  case join hx =>
    refine Or.imp_right (fun ⟨w, hw, t, ht, hr⟩ => ⟨w, ?_, t, ht, hr⟩) h
    refine (List.mem_cons.mp hw).resolve_left ?_
    rintro rfl
    cases hx.symm.trans ht
    cases hr
  case last => exact h
  all_goals exact h.elim

end Awaits

structure Waits (p : AsyncPool) (op k : Nat) : Prop where
  handed : .handed op ∈ p.calls
  awaits : ∃ call, p.calls[k]? = some call ∧ p.Awaits op call

theorem Waits.steps (h : Waits p op k) (hp : Placed p) (hs : p.Steps p') : Waits p' op k := by
  have ⟨handed, call, hk, awaits⟩ := h
  have later {c} (ha : p.Awaits op c) := ha.steps hp hs
  cases hs
  case configure | cancel => exact ⟨handed, call, hk, later awaits⟩
  case enter =>
    refine ⟨List.mem_append_left _ handed, call, ?_, later awaits⟩
    exact (List.getElem?_append_left (List.getElem?_eq_some_iff.mp hk).choose).trans hk
  case work hs =>
    rw [← hs.calls_eq] at handed hk
    exact ⟨handed, call, hk, later awaits⟩
  case resume x q x' j hj hr hq hn =>
    have ⟨y, hy, he⟩ := List.exists_mem_set (b := x') hj hr.ne_handed ⟨_, handed, rfl⟩
    refine ⟨he ▸ hy, ?_⟩
    by_cases hjk : j = k
    case pos =>
      subst hjk
      cases hj.symm.trans hk
      refine ⟨x', ?_, later (awaits.resume hp handed hr hq hn)⟩
      exact List.getElem?_set_self (List.getElem?_eq_some_iff.mp hk).choose
    case neg => exact ⟨call, (List.getElem?_set_ne hjk).trans hk, later awaits⟩

theorem Runs.waits (h : Runs (fun p a => p.isOrderly a) p p') (hp : Placed p) (hw : Waits p op k) :
    Placed p' ∧ Waits p' op k :=
  Reach.invariant (I := fun p => Placed p ∧ Waits p op k)
    (fun _ _ _ ho hn ⟨hp, hw⟩ => ⟨hp.steps (next_steps ho hn), hw.steps hp (next_steps ho hn)⟩)
    h ⟨hp, hw⟩

theorem Placed.completed_le_one (h : Placed p) : p.completed op ≤ 1 := by
  have := h.places op
  have := (decide (op < p.operations.length)).toNat_le
  omega

theorem Placed.active_eq_zero (h : Placed p) (hn : .create (some d) ∉ p.calls)
    (ho : ∀ op, isOf p.operations d op → p.completed op = 1) : p.active d = 0 := by
  have absent op (hd : isOf p.operations d op) : p.calls.countP (·.carries op) = 0 ∧
      p.queue.count op = 0 ∧ p.threads.countP (·.runs op) = 0 := by
    have := h.places op
    have := ho op hd
    have := (decide (op < p.operations.length)).toNat_le
    omega
  have calls : p.calls.countP (counts p.operations d) = 0 := by
    refine List.countP_eq_zero.mpr fun x hx hc => ?_
    cases x
    case create device =>
      cases device
      case none => cases hc
      case some => exact hn (of_decide_eq_true hc ▸ hx)
    case submit op | configure op | push op =>
      exact List.countP_eq_zero.mp (absent op hc).left _ hx (beq_self_eq_true op)
    all_goals cases hc
  have queue : p.queue.countP (isOf p.operations d) = 0 :=
    List.countP_eq_zero.mpr fun op hq hd => List.count_eq_zero.mp (absent op hd).right.left hq
  have threads : p.threads.countP (occupies p.operations d) = 0 := by
    refine List.countP_eq_zero.mpr fun t ht hc => ?_
    cases t
    case run op => exact List.countP_eq_zero.mp (absent op hc).right.right _ ht (beq_self_eq_true op)
    all_goals cases hc
  rw [h.counter, calls, queue, threads]
  rfl

theorem operations_complete (h : Reachable (fun p a => p.isOrderly a) p) :
    (∀ op, p.completed op ≤ 1) ∧
      (∀ d, .create (some d) ∉ p.calls → (∀ op, isOf p.operations d op → p.completed op = 1) →
        p.active d = 0) ∧
      ∀ (k : Nat) p' op, p.calls[k]? = some .stop → .handed op ∈ p.calls →
        Runs (fun p a => p.isOrderly a) p p' → p'.calls[k]? = some .stopped →
        p'.completed op = 1 := by
  have hp := h.placed
  refine ⟨fun op => hp.completed_le_one, fun d => hp.active_eq_zero, ?_⟩
  intro k p' op hk handed hr hstopped
  have ⟨hp', hw⟩ := hr.waits hp ⟨handed, .stop, hk, trivial⟩
  have ⟨call, hcall, awaits⟩ := hw.awaits
  cases hstopped.symm.trans hcall
  rcases awaits with hc | ⟨_, hw, _⟩
  · exact Nat.le_antisymm hp'.completed_le_one hc
  · cases hw

-- Two workers are started, one of them takes the operation, and `stop` waits for it.
theorem operations_complete_while_stopping :
    ∃ p p', Reachable (fun p a => p.isOrderly a) p ∧ p.calls = [.handed 0, .stop] ∧
      p.active 7 = 1 ∧ Runs (fun p a => p.isOrderly a) p p' ∧ p'.calls = [.handed 0, .stopped] ∧
      p'.completed 0 = 1 := by
  have run : (exec (guarded isOrderly next) {} (List.flatten [[.configure 2, .startAsync 7],
    List.replicate 3 (.resume 0), [.work 1 false, .stop]])).any fun p =>
        p.calls == [.handed 0, .stop] && p.active 7 == 1 &&
          (exec (guarded isOrderly next) p (List.flatten [[.resume 1],
            List.replicate 3 (.work 1 false), [.work 0 false],
            List.replicate 3 (.resume 1)])).any (·.calls == [.handed 0, .stopped]) := by
    decide +kernel
  rw [Option.any_eq_true] at run
  have ⟨p, hp, run⟩ := run
  simp only [Bool.and_eq_true, beq_iff_eq, Option.any_eq_true] at run
  have ⟨⟨calls, active⟩, p', hp', calls'⟩ := run
  have h : Reachable (fun p a => p.isOrderly a) p := .of_guarded (fun _ _ hq => hq) hp
  have runs : Runs (fun p a => p.isOrderly a) p p' := .of_guarded (fun _ _ hq => hq) hp'
  have ⟨_, _, complete⟩ := operations_complete h
  have completed := complete 1 p' 0 (by rw [calls]; rfl) (by simp [calls]) runs (by rw [calls']; rfl)
  exact ⟨p, p', h, calls, active, runs, calls', completed⟩

-- An operation is in one place at a time, the counter of a device counts its operations that are not
-- over, and every thread that has not exited is in the pool or waited for.
theorem operations_placed (h : Reachable (fun p a => p.isOrderly a) p) :
    (∀ op < p.operations.length, p.calls.countP (·.carries op) + p.queue.count op +
      p.threads.countP (·.runs op) + p.completed op = 1) ∧
    (∀ d, p.active d = ↑(p.calls.countP (counts p.operations d) +
      p.queue.countP (isOf p.operations d) + p.threads.countP (occupies p.operations d))) ∧
    ∀ (w : Nat) t, p.threads[w]? = some t → t ≠ .exited →
      w ∈ p.workers ∨ ∃ call ∈ p.calls, w ∈ call.joins := by
  have placed := h.placed
  refine ⟨fun op ho => ?_, placed.counter, placed.joined⟩
  rw [placed.places, decide_eq_true ho, Bool.toNat_true]

theorem operations_placed_while_joining : ∃ p : AsyncPool,
    Reachable (fun p a => p.isOrderly a) p ∧ p.workers = [] ∧ ∃ call ∈ p.calls, 0 ∈ call.joins := by
  have ⟨p, h, workers, running⟩ : ∃ p, Reachable (fun p a => p.isOrderly a) p ∧
      p.workers = [] ∧ p.threads[0]? = some (.run 0) :=
    Reach.exists_of_guarded (fun _ _ h => h) [.configure 1, .startAsync 7, .resume 0, .resume 0,
      .resume 0, .work 0 false, .stop, .resume 1] (by decide +kernel)
  have ⟨_, _, joined⟩ := operations_placed h
  exact ⟨p, h, workers, (joined 0 _ running nofun).resolve_left (by simp [workers])⟩

-- An operation was handed out before a call of `stop`, which returns and leaves it as it is.
structure Abandons (ops : List Nat) (workers : List Worker) (k : Nat) (p p' : AsyncPool) :
    Prop where
  reachable : Reachable (fun _ _ => True) p
  queued    : p.queue = ops
  working   : p.threads = workers
  handed    : p.calls[0]? = some (.handed 0)
  begun     : p.calls[k]? = some .stop
  runs      : Runs (fun _ _ => True) p p'
  ended     : p'.calls[k]? = some .stopped
  completed : p'.completed 0 = 0
  active    : p'.active 7 = 1

theorem exists_abandons {ops : List Nat} {workers : List Worker} (start stop : List Action)
    (h : (exec next {} start).any fun p => p.queue == ops && p.threads == workers &&
      p.calls[0]? == some (.handed 0) && p.calls[k]? == some .stop && (exec next p stop).any fun p' =>
        p'.calls[k]? == some .stopped && p'.completed 0 == 0 && p'.active 7 == 1) :
    ∃ p p', Abandons ops workers k p p' := by
  rw [Option.any_eq_true] at h
  have ⟨p, hp, h⟩ := h
  simp only [Bool.and_eq_true, beq_iff_eq, Option.any_eq_true] at h
  have ⟨⟨⟨⟨queued, working⟩, handed⟩, begun⟩, p', hp', ⟨ended, completed⟩, active⟩ := h
  exact ⟨p, p', .of_exec hp, queued, working, handed, begun, .of_exec hp', ended, completed, active⟩

-- The operation is in the queue when the pool is stopped, its task threw, and the pool is stopped a
-- second time while the first call waits for the worker.
theorem stop_abandons_operation :
    (∃ p p', Abandons [0] [.idle] 1 p p') ∧ (∃ p p', Abandons [] [.idle] 1 p p') ∧
      ∃ p p', Abandons [] [.run 0] 2 p p' := by
  refine ⟨?queued, ?threw, ?twice⟩
  case queued =>
    refine exists_abandons (List.flatten [[.configure 1, .startAsync 7],
      List.replicate 3 (.resume 0), [.stop]])
      (List.flatten [[.resume 1, .work 0 false], List.replicate 2 (.resume 1)]) ?_
    decide +kernel
  case threw =>
    refine exists_abandons (List.flatten [[.configure 1, .startAsync 7],
      List.replicate 3 (.resume 0), [.work 0 false, .work 0 true, .stop]])
      (List.flatten [[.resume 1, .work 0 false], List.replicate 2 (.resume 1)]) ?_
    decide +kernel
  case twice =>
    refine exists_abandons (List.flatten [[.configure 1, .startAsync 7],
      List.replicate 3 (.resume 0), [.work 0 false, .stop, .resume 1, .stop]]) [.resume 2] ?_
    decide +kernel

end AsyncPool

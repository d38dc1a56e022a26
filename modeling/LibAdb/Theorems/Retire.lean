import LibAdb.Machine.Async

def AsyncCall.pushes : AsyncCall → Bool
  | .push _ => true
  | _ => false

namespace AsyncPool

variable {p p' : AsyncPool} {call call' : AsyncCall} {worker worker' : Worker} {k : Nat}

-- Every worker that was taken out of the pool has left its loop.
def isCollected (p : AsyncPool) : Bool :=
  (List.range p.threads.length).all fun w => p.workers.contains w || p.threads[w]? == some .exited

-- The pool is started again when the workers of the last stop are gone, and it is not stopped between
-- the two halves of a submission that has to start it.
def isSeparate (p : AsyncPool) : Action → Bool
  | .configure _ => p.isCollected
  | .resume k =>
    match p.calls[k]? with
    | some (.configure _) => p.isCollected
    | some .stop => !p.calls.any (·.pushes)
    | _ => true
  | _ => true

theorem isCollected_exited {w : Nat} (h : p.isCollected) (ht : p.threads[w]? = some worker)
    (hw : w ∉ p.workers) : worker = .exited := by
  have hl := (List.getElem?_eq_some_iff.mp ht).choose
  have hc := List.all_eq_true.mp h w (List.mem_range.mpr hl)
  simpa [hw, ht] using hc

-- A queue is served by workers of the pool, and a worker outside of it has nothing left to do.
structure Served (p : AsyncPool) : Prop where
  running : p.workers ≠ [] → p.running
  live {w : Nat} : w ∈ p.workers → ∃ t, p.threads[w]? = some t ∧ t ≠ .exited
  pushing : .push op ∈ p.calls → p.workers ≠ []
  queued  : p.queue ≠ [] → p.workers ≠ []
  retired {w : Nat} : p.threads[w]? = some t → t ≠ .exited → w ∉ p.workers → p.running = false

theorem workers_configure : (p.configure n).workers ≠ [] := by
  intro h
  have ⟨empty, missing⟩ := List.append_eq_nil_iff.mp h
  have := List.range'_eq_nil_iff.mp missing
  rw [empty, List.length_nil] at this
  omega

namespace Served

theorem configure (h : Served p) (hc : p.isCollected) : Served (p.configure n) where
  running _ := rfl
  live {w} hw := by
    rcases List.mem_append.mp hw with hw | hw
    case inl =>
      have ⟨t, ht, alive⟩ := h.live hw
      exact ⟨t, (List.getElem?_append_left (List.getElem?_eq_some_iff.mp ht).choose).trans ht, alive⟩
    case inr =>
      have ⟨old, new⟩ := List.mem_range'_1.mp hw
      have hl : w - p.threads.length < max n 1 - p.workers.length := by omega
      refine ⟨.idle, ?_, nofun⟩
      rw [AsyncPool.configure, List.getElem?_append_right old, List.getElem?_replicate, if_pos hl]
  pushing _ := workers_configure
  queued _ := workers_configure
  retired ht hn hw := by
    rcases joined_configure ht with ht | hj
    case inl => exact absurd (isCollected_exited hc ht fun hm => hw (List.mem_append_left _ hm)) hn
    case inr => exact absurd hj hw

theorem pass (h : Served p) (k : Nat) (call' : AsyncCall) (hc : ∀ op, call' ≠ .push op) :
    Served { p with calls := p.calls.set k call' } where
  running := h.running
  live := h.live
  pushing hm := h.pushing ((List.mem_or_eq_of_mem_set hm).resolve_right (hc _ ·.symm))
  queued := h.queued
  retired := h.retired

theorem push (h : Served p) (hw : p.workers ≠ []) :
    Served { p with queue := p.queue ++ [op], calls := p.calls.set k (.handed op) } where
  running := h.running
  live := h.live
  pushing _ := hw
  queued _ := hw
  retired := h.retired

theorem stop (hc : ∀ op, .push op ∉ p.calls) : Served { p with
    running := false, queue := [], workers := [], calls := p.calls.set k (.join p.workers) } where
  running hw := absurd rfl hw
  live := nofun
  pushing hm := absurd ((List.mem_or_eq_of_mem_set hm).resolve_right nofun) (hc _)
  queued hq := absurd rfl hq
  retired _ _ _ := rfl

theorem resume (h : Served p) (hp : p.isSeparate (.resume k)) (hk : p.calls[k]? = some call)
    (hr : p.resume call = some (p', call')) : Served { p' with calls := p.calls.set k call' } := by
  simp only [isSeparate, hk] at hp
  cases call
  case count =>
    cases hr
    exact { h.pass k (.create _) (by rintro _ ⟨⟩) with }
  case create =>
    cases hr
    exact { h.pass k (.submit _) (by rintro _ ⟨⟩) with }
  case submit =>
    simp only [AsyncPool.resume] at hr
    split at hr <;> cases hr
    case isTrue => exact h.pass k _ (by rintro _ ⟨⟩)
    case isFalse hw =>
      simp only [Bool.or_eq_true, List.isEmpty_iff, not_or] at hw
      exact h.push hw.right
  case configure =>
    cases hr
    have started := h.configure (n := defaultThreads) hp
    exact { started with pushing := fun _ => workers_configure }
  case push =>
    cases hr
    exact h.push (h.pushing (List.mem_of_getElem? hk))
  case stop =>
    simp only [AsyncPool.resume] at hr
    split at hr <;> cases hr
    case isTrue => exact h.pass k _ (by rintro _ ⟨⟩)
    case isFalse =>
      simp only [Bool.not_eq_true', List.any_eq_false] at hp
      exact Served.stop fun op hm => hp _ hm rfl
  case join rest =>
    cases rest
    case nil =>
      cases hr
      exact h.pass k _ (by rintro _ ⟨⟩)
    case cons =>
      simp only [AsyncPool.resume, Option.ite_none_right_eq_some] at hr
      cases hr.right
      exact h.pass k _ (by rintro _ ⟨⟩)
  case handed | stopped => cases hr

end Served

theorem work_frame (h : p.work threw worker = some (p', worker')) :
    p'.running = p.running ∧ p'.workers = p.workers ∧ p'.threads = p.threads ∧ p'.calls = p.calls ∧
      (p.queue = [] → p'.queue = []) ∧ (worker' = .exited → p.running = false) := by
  cases worker
  case idle =>
    simp only [work] at h
    split at h
    case h_1 hq =>
      cases h
      exact ⟨rfl, rfl, rfl, rfl, fun he => absurd (hq.symm.trans he) (List.cons_ne_nil _ _), by rintro ⟨⟩⟩
    case h_2 =>
      simp only [Option.ite_none_left_eq_some, Option.some.injEq, Prod.mk.injEq] at h
      obtain ⟨stopped, rfl, -⟩ := h
      exact ⟨rfl, rfl, rfl, rfl, id, fun _ => Bool.eq_false_iff.mpr stopped⟩
  case run =>
    simp only [work] at h
    split at h
    case isTrue =>
      cases h
      exact ⟨rfl, rfl, rfl, rfl, id, by rintro ⟨⟩⟩
    case isFalse => split at h <;> cases h <;> exact ⟨rfl, rfl, rfl, rfl, id, by rintro ⟨⟩⟩
  case finished =>
    cases h
    exact ⟨rfl, rfl, rfl, rfl, id, by rintro ⟨⟩⟩
  case exited => cases h

theorem Served.work {w : Nat} (h : Served p) (hw : p.threads[w]? = some worker)
    (hs : p.work threw worker = some (p', worker')) :
    Served { p' with threads := p.threads.set w worker' } := by
  have ⟨running, workers, _, calls, queue, exits⟩ := work_frame hs
  have alive : worker ≠ .exited := by
    rintro rfl
    cases hs
  constructor
  case running =>
    rw [workers, running]
    exact h.running
  case live =>
    intro i hi
    rw [workers] at hi
    by_cases he : w = i
    case pos =>
      subst he
      refine ⟨worker', List.getElem?_set_self (List.getElem?_eq_some_iff.mp hw).choose, ?_⟩
      rintro rfl
      have := h.running (List.ne_nil_of_mem hi)
      exact Bool.false_ne_true ((exits rfl).symm.trans this)
    case neg =>
      have ⟨t, ht, hn⟩ := h.live hi
      exact ⟨t, (List.getElem?_set_ne he).trans ht, hn⟩
  case pushing =>
    intro op
    rw [calls, workers]
    exact h.pushing
  case queued =>
    rw [workers]
    exact fun hq => h.queued fun he => hq (queue he)
  case retired =>
    intro t i ht hn hi
    rw [workers] at hi
    rw [running]
    by_cases he : w = i
    case pos =>
      subst he
      exact h.retired hw alive hi
    case neg => exact h.retired ((List.getElem?_set_ne he).symm.trans ht) hn hi

theorem Served.next (h : Served p) (hp : p.isSeparate a) (hn : p.next a = some p') : Served p' := by
  cases a
  case configure =>
    cases hn
    exact h.configure hp
  case startAsync | runAll | stop =>
    cases hn
    refine { h with pushing := fun hm => ?_ }
    have hm := (List.mem_append.mp hm).resolve_right fun hm => nomatch List.mem_singleton.mp hm
    exact h.pushing hm
  case cancel =>
    cases hn
    exact { h with }
  case resume k =>
    simp only [AsyncPool.next, Option.bind_eq_some_iff, Option.map_eq_some_iff] at hn
    obtain ⟨call, hk, ⟨q, call'⟩, hr, rfl⟩ := hn
    rw [(resume_resumes hr).calls_eq]
    exact h.resume hp hk hr
  case work w threw =>
    simp only [AsyncPool.next, Option.bind_eq_some_iff, Option.map_eq_some_iff] at hn
    obtain ⟨worker, hw, ⟨q, worker'⟩, hr, rfl⟩ := hn
    obtain ⟨-, -, threads, -⟩ := work_frame hr
    rw [threads]
    exact h.work hw hr

theorem Reachable.served (h : Reachable (fun p a => p.isSeparate a) p) : Served p := by
  apply Reach.invariant (I := Served) (fun _ _ _ hp hn h => h.next hp hn) h
  exact ⟨nofun, nofun, nofun, nofun, nofun⟩

-- A worker that was taken out and comes back to its loop leaves it, and a queued task has a worker of
-- the pool that has not.
theorem workers_retire (h : Reachable (fun p a => p.isSeparate a) p) :
    (∀ w threw, w ∉ p.workers → p.threads[w]? = some .idle →
      p.next (.work w threw) = some { p with threads := p.threads.set w .exited }) ∧
    ∀ op ∈ p.queue, ∃ w ∈ p.workers, ∃ t, p.threads[w]? = some t ∧ t ≠ .exited := by
  have served := h.served
  constructor
  case left =>
    intro w threw hw ht
    have stopped := served.retired ht (by rintro ⟨⟩) hw
    have alone : p.workers = [] := by
      by_contra hn
      exact Bool.false_ne_true (stopped.symm.trans (served.running hn))
    have empty : p.queue = [] := by
      by_contra hn
      exact served.queued hn alone
    simp [next, ht, work, empty, stopped]
  case right =>
    intro op hq
    obtain ⟨w, hw⟩ := List.exists_mem_of_ne_nil _ (served.queued (List.ne_nil_of_mem hq))
    exact ⟨w, hw, served.live hw⟩

-- A task waits for one of two workers, and then the pool is stopped.
theorem workers_retire_after_stop :
    ∃ p p', Reachable (fun p a => p.isSeparate a) p ∧ Reachable (fun p a => p.isSeparate a) p' ∧
      p.queue = [0] ∧ (∃ w ∈ p.workers, ∃ t, p.threads[w]? = some t ∧ t ≠ .exited) ∧
      p'.workers = [] ∧ p'.threads = [.idle, .run 0] ∧
      p'.next (.work 0 false) = some { p' with threads := [.exited, .run 0] } := by
  have run : (exec (guarded isSeparate next) {} (List.flatten [[.configure 2, .startAsync 7],
    List.replicate 3 (.resume 0)])).any fun p => p.queue == [0] &&
        (exec (guarded isSeparate next) p [.work 1 false, .stop, .resume 1]).any fun p' =>
          p'.workers == [] && p'.threads == [.idle, .run 0] := by
    decide +kernel
  rw [Option.any_eq_true] at run
  have ⟨p, hp, run⟩ := run
  simp only [Bool.and_eq_true, beq_iff_eq, Option.any_eq_true] at run
  have ⟨queue, p', hp', workers, threads⟩ := run
  have h : Reachable (fun p a => p.isSeparate a) p := .of_guarded (fun _ _ hq => hq) hp
  have h' : Reachable (fun p a => p.isSeparate a) p' :=
    h.trans (.of_guarded (fun _ _ hq => hq) hp')
  have ⟨_, served⟩ := workers_retire h
  have ⟨retired, _⟩ := workers_retire h'
  have left := retired 0 false (by simp [workers]) (by simp [threads])
  refine ⟨p, p', h, h', queue, served 0 (by simp [queue]), workers, threads, ?_⟩
  rw [left, threads]
  rfl

-- The pool is started again before a worker that was taken out has left: the worker waits again and
-- takes the next task. A stop between the halves of a submission leaves its task without a worker.
theorem retired_worker_takes_task :
    (∃ p p' p'', Reachable (fun _ _ => True) p ∧ p.workers = [1] ∧ p.threads = [.idle, .idle] ∧
      p.calls = [.join [0]] ∧ p.next (.work 0 false) = none ∧ Runs (fun _ _ => True) p p' ∧
      p'.workers = [1] ∧ p'.next (.work 0 false) = some p'' ∧ p''.threads = [.run 0, .idle]) ∧
    ∃ p, Reachable (fun _ _ => True) p ∧ p.queue = [0] ∧ p.calls[0]? = some (.handed 0) ∧
      p.workers = [] ∧ ∀ t ∈ p.threads, t = .exited := by
  constructor
  case left =>
    have run : (exec next {} [.configure 1, .stop, .resume 0, .configure 1]).any fun p =>
        p.workers == [1] && p.threads == [.idle, .idle] && p.calls == [.join [0]] &&
          (p.next (.work 0 false)).isNone &&
          (exec next p (List.flatten [[.startAsync 7], List.replicate 3 (.resume 1)])).any fun p' =>
            p'.workers == [1] && (p'.next (.work 0 false)).any (·.threads == [.run 0, .idle]) := by
      decide +kernel
    simp only [Option.any_eq_true, Bool.and_eq_true, beq_iff_eq, Option.isNone_iff_eq_none] at run
    have ⟨p, hp, ⟨⟨⟨workers, threads⟩, calls⟩, waits⟩, p', hp', workers', p'', hn, taken⟩ := run
    exact ⟨p, p', p'', .of_exec hp, workers, threads, calls, waits, .of_exec hp', workers', hn, taken⟩
  case right =>
    have run : (exec next {} (List.flatten [[.startAsync 7], List.replicate 4 (.resume 0),
      [.stop, .resume 1, .work 0 false, .work 1 false, .work 2 false, .work 3 false,
        .resume 0]])).any fun p => p.queue == [0] && p.calls[0]? == some (.handed 0) &&
            p.workers == [] && p.threads.all (· == .exited) := by
      decide +kernel
    simp only [Option.any_eq_true, Bool.and_eq_true, beq_iff_eq, List.all_eq_true] at run
    have ⟨p, hp, ⟨⟨queue, calls⟩, workers⟩, exited⟩ := run
    exact ⟨p, .of_exec hp, queue, calls, workers, exited⟩

end AsyncPool

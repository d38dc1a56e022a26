import LibAdb.Execution.Async
import LibAdb.Library.Threads

namespace AsyncCall

def carries (op : Nat) : AsyncCall → Bool
  | .submit o | .configure o | .push o => op == o
  | _ => false

def owns (op : Nat) : AsyncCall → Bool
  | .submit o | .configure o | .push o | .handed o => op == o
  | _ => false

def joins : AsyncCall → List Nat
  | .join rest => rest
  | _ => []

def isJoining : AsyncCall → Bool
  | .join _ => true
  | _ => false

inductive Entry : AsyncCall → Prop
  | start : Entry (.count d)
  | batch : Entry (.create none)
  | stop : Entry .stop

end AsyncCall

def Worker.runs (op : Nat) : Worker → Bool
  | .run o | .finished o => op == o
  | _ => false

namespace AsyncPool

variable {p p' : AsyncPool} {call call' : AsyncCall} {worker worker' : Worker} {k : Nat}

def completed (p : AsyncPool) (op : Nat) : Nat :=
  ((p.operations[op]?).map (·.completed)).getD 0

def isOf (ops : List AsyncOperation) (device op : Nat) : Bool :=
  (ops[op]?).any (decide <| ·.device = some device)

def counts (ops : List AsyncOperation) (device : Nat) : AsyncCall → Bool
  | .create (some d) => decide (d = device)
  | .submit op | .configure op | .push op => isOf ops device op
  | _ => false

def occupies (ops : List AsyncOperation) (device : Nat) : Worker → Bool
  | .run op => isOf ops device op
  | _ => false

-- An operation is with the call that submits it, in the queue or with a worker, or it is completed.
structure Placed (p : AsyncPool) : Prop where
  places op : p.calls.countP (·.carries op) + p.queue.count op + p.threads.countP (·.runs op) +
    p.completed op = (decide (op < p.operations.length)).toNat
  owners op : p.calls.countP (·.owns op) = (decide (op < p.operations.length)).toNat
  joined (w : Nat) t : p.threads[w]? = some t → t ≠ .exited →
    w ∈ p.workers ∨ ∃ call ∈ p.calls, w ∈ call.joins
  counter d : p.active d = ↑(p.calls.countP (counts p.operations d) +
    p.queue.countP (isOf p.operations d) + p.threads.countP (occupies p.operations d))

-- No task throws, and the pool is stopped when its queue is empty and no other stop is under way.
def isOrderly (p : AsyncPool) : Action → Bool
  | .work _ threw => !threw
  | .resume k =>
    p.calls[k]? != some .stop || p.queue.isEmpty && !p.calls.any (·.isJoining)
  | _ => true

inductive Resumes (p : AsyncPool) : AsyncCall → AsyncPool → AsyncCall → Prop
  | count : Resumes p (.count d) (p.fetchAdd d 1) (.create (some d))
  | create :
    Resumes p (.create device) { p with operations := p.operations ++ [{ device }] }
      (.submit p.operations.length)
  | lazy : Resumes p (.submit op) p (.configure op)
  | submit : Resumes p (.submit op) { p with queue := p.queue ++ [op] } (.handed op)
  | configure : Resumes p (.configure op) (p.configure defaultThreads) (.push op)
  | push : Resumes p (.push op) { p with queue := p.queue ++ [op] } (.handed op)
  | idle (h : p.workers = []) : Resumes p .stop p .stopped
  | stop :
    Resumes p .stop { p with running := false, queue := [], workers := [] } (.join p.workers)
  | join (h : p.threads[w]? = some .exited) : Resumes p (.join (w :: rest)) p (.join rest)
  | last : Resumes p (.join []) p .stopped

theorem resume_resumes (h : p.resume call = some (p', call')) : p.Resumes call p' call' := by
  cases call
  case count | create | configure | push =>
    cases h
    constructor
  case submit =>
    simp only [resume] at h
    split at h <;> cases h
    case isTrue => exact .lazy
    case isFalse => exact .submit
  case stop =>
    simp only [resume] at h
    split at h <;> cases h
    case isTrue hi =>
      simp only [Bool.and_eq_true, List.isEmpty_iff] at hi
      exact .idle hi.right
    case isFalse => exact .stop
  case join rest =>
    cases rest
    case nil =>
      cases h
      exact .last
    case cons =>
      simp only [resume, Option.ite_none_right_eq_some, Option.some.injEq, Prod.mk.injEq] at h
      obtain ⟨hw, rfl, rfl⟩ := h
      exact .join hw
  case handed | stopped => cases h

inductive Works (p : AsyncPool) : Worker → AsyncPool → Worker → Prop
  | take (h : p.queue = op :: rest) : Works p .idle { p with queue := rest } (.run op)
  | exit : Works p .idle p .exited
  | finished (h : (p.operations[op]?).bind (·.device) = some d) :
    Works p (.run op) (p.fetchAdd d (-1)) (.finished op)
  | batch (h : (p.operations[op]?).bind (·.device) = none) :
    Works p (.run op) (p.complete op) .idle
  | complete : Works p (.finished op) (p.complete op) .idle

theorem work_works (h : p.work false worker = some (p', worker')) : p.Works worker p' worker' := by
  cases worker
  case idle =>
    simp only [work] at h
    split at h
    case h_1 hq =>
      cases h
      exact .take hq
    case h_2 =>
      simp only [Option.ite_none_left_eq_some, Option.some.injEq, Prod.mk.injEq] at h
      obtain ⟨-, rfl, rfl⟩ := h
      exact .exit
  case run =>
    simp only [work, Bool.false_eq_true, if_false] at h
    split at h <;> cases h
    case h_1 hd => exact .finished hd
    case h_2 hd => exact .batch hd
  case finished =>
    cases h
    exact .complete
  case exited => cases h

section

theorem completed_append (h : o.completed = 0) :
    completed { p with operations := p.operations ++ [o] } op = p.completed op := by
  simp only [completed, List.getElem?_append]
  split
  case isTrue => rfl
  case isFalse hn =>
    rw [List.getElem?_eq_none (Nat.le_of_not_lt hn), List.getElem?_singleton]
    split <;> simp [h]

theorem completed_complete (h : o < p.operations.length) :
    (p.complete o).completed op = p.completed op + (op == o).toNat := by
  simp only [completed, complete, List.getElem?_modify]
  by_cases ho : o = op
  case pos =>
    subst ho
    simp [h]
  case neg => simp [ho, Ne.symm ho]

theorem completed_cancel :
    completed { p with operations := p.operations.modify o ({ · with canceled := true }) } op =
      p.completed op := by
  simp only [completed, List.getElem?_modify]
  cases p.operations[op]? <;> simp
  split <;> rfl

variable {ops : List AsyncOperation}

theorem isOf_modify {f : AsyncOperation → AsyncOperation} (h : ∀ o, (f o).device = o.device) :
    isOf (ops.modify o f) d op = isOf ops d op := by
  simp only [isOf, List.getElem?_modify]
  cases ops[op]? <;> simp
  split <;> simp [h]

theorem isOf_append (h : op < ops.length) : isOf (ops ++ [o]) d op = isOf ops d op := by
  simp only [isOf, List.getElem?_append_left h]

end

section

variable {ops : List AsyncOperation}

theorem toNat_lt_succ (op n : Nat) :
    (op == n).toNat + (decide (op < n)).toNat = (decide (op < n + 1)).toNat := by
  rcases Nat.lt_trichotomy op n with h | rfl | h
  · simp [h, Nat.ne_of_lt h, Nat.lt_succ_of_lt h]
  · simp
  · have : ¬op < n + 1 := by omega
    simp [this, Nat.ne_of_gt h, Nat.not_lt_of_gt h]

theorem count_singleton (op o : Nat) : [o].count op = (op == o).toNat := by
  rw [List.count_singleton]
  by_cases h : o = op
  · simp [h]
  · simp [h, beq_false_of_ne (Ne.symm h)]

theorem runs_configure : (p.configure n).threads.countP (·.runs op) = p.threads.countP (·.runs op) := by
  simp [configure, List.countP_append, List.countP_replicate, Worker.runs]

theorem occupies_configure :
    (p.configure n).threads.countP (occupies ops d) = p.threads.countP (occupies ops d) := by
  simp [configure, List.countP_append, List.countP_replicate, occupies]

theorem joined_configure {w : Nat} (h : (p.configure n).threads[w]? = some t) :
    p.threads[w]? = some t ∨ w ∈ (p.configure n).workers := by
  simp only [configure, List.getElem?_append] at h
  split at h
  case isTrue => exact .inl h
  case isFalse hw =>
    have hl := (List.getElem?_eq_some_iff.mp h).choose
    rw [List.length_replicate] at hl
    refine .inr (List.mem_append_right _ (List.mem_range'_1.mpr ⟨Nat.le_of_not_lt hw, ?_⟩))
    omega

end

namespace Resumes

variable (h : p.Resumes call p' call')

include h

theorem places (hq : call = .stop → p.queue = []) (op : Nat) :
    (call'.carries op).toNat + p'.queue.count op + p'.threads.countP (·.runs op) +
        p'.completed op + (decide (op < p.operations.length)).toNat =
      (call.carries op).toNat + p.queue.count op + p.threads.countP (·.runs op) +
        p.completed op + (decide (op < p'.operations.length)).toNat := by
  cases h
  case create =>
    have length := toNat_lt_succ op p.operations.length
    simp only [completed_append, AsyncCall.carries, List.length_append, List.length_singleton]
    simp only [Bool.toNat_false]
    omega
  case configure =>
    rw [runs_configure]
    rfl
  case stop =>
    rw [hq rfl]
    rfl
  case submit | push =>
    simp only [List.count_append, count_singleton, AsyncCall.carries, Bool.toNat_false]
    simp only [completed]
    omega
  all_goals rfl

theorem owners (op : Nat) :
    (call'.owns op).toNat + (decide (op < p.operations.length)).toNat =
      (call.owns op).toNat + (decide (op < p'.operations.length)).toNat := by
  cases h
  case create =>
    have length := toNat_lt_succ op p.operations.length
    simp only [AsyncCall.owns, List.length_append, List.length_singleton, Bool.toNat_false]
    omega
  all_goals rfl

theorem joined {other : Prop} {w : Nat} (ht : p'.threads[w]? = some t) (hn : t ≠ .exited)
    (ih : p.threads[w]? = some t → w ∈ p.workers ∨ w ∈ call.joins ∨ other) :
    w ∈ p'.workers ∨ w ∈ call'.joins ∨ other := by
  cases h
  case configure =>
    rcases joined_configure ht with ht | hw
    · exact (ih ht).imp_left (List.mem_append_left _)
    · exact .inl hw
  case stop =>
    rcases ih ht with hw | hw | ho
    · exact .inr (.inl hw)
    · cases hw
    · exact .inr (.inr ho)
  case join hx =>
    refine (ih ht).imp_right (Or.imp_left fun hw => (List.mem_cons.mp hw).resolve_left ?_)
    rintro rfl
    cases hx.symm.trans ht
    exact hn rfl
  all_goals exact ih ht

theorem isOf_eq (ho : op < p.operations.length) :
    isOf p'.operations d op = isOf p.operations d op := by
  cases h
  case create => exact isOf_append ho
  all_goals rfl

end Resumes

namespace Placed

theorem lt_length (h : Placed p) (ho : 0 < p.calls.countP (·.carries op) + p.queue.count op +
    p.threads.countP (·.runs op)) : op < p.operations.length := by
  have := h.places op
  by_contra hn
  simp only [hn, decide_false, Bool.toNat_false] at this
  omega

theorem lt_of_carries (h : Placed p) (hc : call ∈ p.calls) (ho : call.carries op) :
    op < p.operations.length := by
  have : 0 < p.calls.countP (·.carries op) := List.countP_pos_iff.mpr ⟨call, hc, ho⟩
  exact h.lt_length (by omega)

theorem lt_of_mem (h : Placed p) (ho : op ∈ p.queue) : op < p.operations.length := by
  have := List.count_pos_iff.mpr ho
  exact h.lt_length (by omega)

theorem lt_of_runs (h : Placed p) (hw : worker ∈ p.threads) (ho : worker.runs op) :
    op < p.operations.length := by
  have : 0 < p.threads.countP (·.runs op) := List.countP_pos_iff.mpr ⟨worker, hw, ho⟩
  exact h.lt_length (by omega)

section

variable (h : Placed p) (hs : p.Resumes call p' call')

include h hs

theorem counts_congr (hc : x ∈ p.calls) : counts p'.operations d x = counts p.operations d x := by
  cases x
  case submit | configure | push => exact hs.isOf_eq (h.lt_of_carries hc (beq_self_eq_true _))
  case create device => cases device <;> rfl
  all_goals rfl

theorem queue_congr :
    p.queue.countP (isOf p'.operations d) = p.queue.countP (isOf p.operations d) :=
  List.countP_congr fun op ho => by rw [hs.isOf_eq (h.lt_of_mem ho)]

theorem threads_congr :
    p.threads.countP (occupies p'.operations d) = p.threads.countP (occupies p.operations d) := by
  refine List.countP_congr fun worker hw => ?_
  cases worker
  case run op => simp only [occupies, hs.isOf_eq (h.lt_of_runs hw (beq_self_eq_true op))]
  all_goals rfl

theorem resumes_counter (hq : call = .stop → p.queue = []) (d : Nat) :
    p'.active d + ↑((counts p.operations d call).toNat + p.queue.countP (isOf p.operations d) +
        p.threads.countP (occupies p.operations d)) =
      p.active d + ↑((counts p'.operations d call').toNat + p'.queue.countP (isOf p'.operations d) +
        p'.threads.countP (occupies p'.operations d)) := by
  have hqueue := h.queue_congr (d := d) hs
  have hthreads := h.threads_congr (d := d) hs
  cases hs
  case count e =>
    by_cases hd : d = e
    · simp [fetchAdd, counts, hd]
      omega
    · simp [fetchAdd, counts, hd, Ne.symm hd]
  case create device =>
    have counted : counts p.operations d (.create device) =
        counts (p.operations ++ [{ device := device }]) d (.submit p.operations.length) := by
      cases device <;> simp [counts, isOf]
    rw [hqueue, hthreads, counted]
  case configure =>
    rw [occupies_configure]
    rfl
  case stop =>
    rw [hq rfl]
    rfl
  case submit op | push op =>
    simp only [List.countP_append, List.countP_singleton, counts]
    cases isOf p.operations d op <;> simp
    omega
  all_goals rfl

end

theorem resume (h : Placed p) (hk : p.calls[k]? = some call) (hs : p.Resumes call p' call')
    (hq : call = .stop → p.queue = []) : Placed { p' with calls := p.calls.set k call' } where
  places op := by
    have moved := List.countP_set_add (p := (·.carries op)) (b := call') hk
    have := hs.places hq op
    have := h.places op
    simp only [completed] at *
    omega
  owners op := by
    have moved := List.countP_set_add (p := (·.owns op)) (b := call') hk
    have := hs.owners op
    have := h.owners op
    simp only at *
    omega
  joined w t ht hn := by
    have ih (ht : p.threads[w]? = some t) : w ∈ p.workers ∨ w ∈ call.joins ∨
        ∃ x ∈ p.calls.set k call', w ∈ x.joins := by
      by_cases hc : w ∈ call.joins
      case pos => exact .inr (.inl hc)
      case neg => exact (h.joined w t ht hn).imp_right fun hx => .inr (List.exists_mem_set hk hc hx)
    refine (hs.joined ht hn ih).imp_right fun hx => ?_
    exact hx.elim (fun hw => ⟨call', List.mem_set_of_getElem? hk, hw⟩) id
  counter d := by
    have moved := List.countP_set_add (p := counts p'.operations d) (b := call') hk
    have same : p.calls.countP (counts p'.operations d) = p.calls.countP (counts p.operations d) :=
      List.countP_congr fun x hx => by rw [h.counts_congr hs hx]
    have counted := h.resumes_counter hs hq d
    have := h.counter d
    rw [same, h.counts_congr hs (List.mem_of_getElem? hk)] at moved
    push_cast at *
    omega

end Placed

namespace Works

variable (h : p.Works worker p' worker')

include h

theorem calls_eq : p'.calls = p.calls := by
  cases h <;> rfl

theorem workers_eq : p'.workers = p.workers := by
  cases h <;> rfl

theorem threads_eq : p'.threads = p.threads := by
  cases h <;> rfl

theorem length_eq : p'.operations.length = p.operations.length := by
  cases h
  case batch | complete => exact List.length_modify ..
  all_goals rfl

theorem isOf_eq : isOf p'.operations = isOf p.operations := by
  cases h
  case batch | complete => exact funext₂ fun _ _ => isOf_modify fun _ => rfl
  all_goals rfl

theorem ne_exited : worker ≠ .exited := by
  cases h <;> nofun

theorem places (ho : ∀ op, worker.runs op → op < p.operations.length) (op : Nat) :
    p'.queue.count op + (worker'.runs op).toNat + p'.completed op =
      p.queue.count op + (worker.runs op).toNat + p.completed op := by
  cases h
  case take o rest hq =>
    rw [hq, ← List.singleton_append, List.count_append, count_singleton]
    simp only [Worker.runs, completed, Bool.toNat_false]
    omega
  case batch o _ | complete o =>
    rw [completed_complete (ho o (beq_self_eq_true o))]
    simp only [Worker.runs, AsyncPool.complete, Bool.toNat_false]
    omega
  all_goals rfl

theorem counter (d : Nat) :
    p'.active d + ↑(p.queue.countP (isOf p.operations d) + (occupies p.operations d worker).toNat) =
      p.active d + ↑(p'.queue.countP (isOf p.operations d) +
        (occupies p.operations d worker').toNat) := by
  cases h
  case take o rest hq =>
    rw [hq, List.countP_cons]
    cases ho : isOf p.operations d o <;> simp [occupies, ho]
  case finished o e he =>
    have ⟨operation, hop, hdevice⟩ := Option.bind_eq_some_iff.mp he
    by_cases hd : d = e
    · simp [occupies, isOf, fetchAdd, hop, hdevice, hd]
      omega
    · simp [occupies, isOf, fetchAdd, hop, hdevice, hd, Ne.symm hd]
  case batch o he =>
    have : isOf p.operations d o = false := by
      cases ho : p.operations[o]? <;> simp_all [isOf]
    simp only [occupies, this, AsyncPool.complete]
  all_goals rfl

end Works

theorem Resumes.calls_eq (h : p.Resumes call p' call') : p'.calls = p.calls := by
  cases h <;> rfl

inductive Steps (p : AsyncPool) : AsyncPool → Prop
  | configure : Steps p (p.configure n)
  | enter {x : AsyncCall} (h : x.Entry) : Steps p (p.enter x)
  | cancel : Steps p { p with operations := p.operations.modify op ({ · with canceled := true }) }
  | resume {j : Nat} (hk : p.calls[j]? = some x) (hs : p.Resumes x q x')
    (hq : x = .stop → p.queue = []) (hj : x = .stop → ∀ y ∈ p.calls, ¬y.isJoining) :
    Steps p { q with calls := p.calls.set j x' }
  | work {w : Nat} (hw : p.threads[w]? = some t) (hs : p.Works t q t') :
    Steps p { q with threads := p.threads.set w t' }

theorem next_steps (ho : p.isOrderly a) (h : p.next a = some p') : p.Steps p' := by
  cases a
  case configure =>
    cases h
    exact .configure
  case startAsync =>
    cases h
    exact .enter .start
  case runAll =>
    cases h
    exact .enter .batch
  case stop =>
    cases h
    exact .enter .stop
  case cancel =>
    cases h
    exact .cancel
  case resume k =>
    simp only [next, Option.bind_eq_some_iff, Option.map_eq_some_iff] at h
    obtain ⟨call, hk, ⟨q, call'⟩, hr, rfl⟩ := h
    have hs := resume_resumes hr
    rw [hs.calls_eq]
    have calm (hc : call = .stop) : p.queue = [] ∧ ∀ x ∈ p.calls, ¬x.isJoining := by
      simpa [isOrderly, hk, hc] using ho
    exact .resume hk hs (fun hc => (calm hc).left) fun hc => (calm hc).right
  case work w threw =>
    cases threw
    case true => cases ho
    case false =>
      simp only [next, Option.bind_eq_some_iff, Option.map_eq_some_iff] at h
      obtain ⟨worker, hw, ⟨q, worker'⟩, hr, rfl⟩ := h
      have hs := work_works hr
      rw [hs.threads_eq]
      exact .work hw hs

theorem counts_congr_of {ops ops' : List AsyncOperation} (h : isOf ops' = isOf ops) :
    counts ops' d = counts ops d ∧ occupies ops' d = occupies ops d := by
  refine ⟨funext fun call => ?_, funext fun worker => ?_⟩
  case refine_1 =>
    cases call
    case create device => cases device <;> rfl
    all_goals simp only [counts, h]
  case refine_2 => cases worker <;> simp only [occupies, h]

namespace Placed

theorem work (h : Placed p) (hw : p.threads[w]? = some worker) (hs : p.Works worker p' worker') :
    Placed { p' with threads := p.threads.set w worker' } where
  places op := by
    have moved := List.countP_set_add (p := (·.runs op)) (b := worker') hw
    have := hs.places (fun o ho => h.lt_of_runs (List.mem_of_getElem? hw) ho) op
    have := h.places op
    simp only [completed, hs.calls_eq, hs.length_eq] at *
    omega
  owners op := by
    simp only [hs.calls_eq, hs.length_eq]
    exact h.owners op
  joined w' t ht hn := by
    simp only [hs.calls_eq, hs.workers_eq]
    by_cases he : w = w'
    case pos =>
      subst he
      exact h.joined w worker hw hs.ne_exited
    case neg =>
      simp only [List.getElem?_set_ne he] at ht
      exact h.joined w' t ht hn
  counter d := by
    have ⟨hcounts, hoccupies⟩ := counts_congr_of (d := d) hs.isOf_eq
    have moved := List.countP_set_add (p := occupies p.operations d) (b := worker') hw
    have counted := hs.counter d
    have := h.counter d
    simp only [hcounts, hoccupies, hs.isOf_eq, hs.calls_eq]
    push_cast at *
    omega

theorem empty : Placed {} where
  places _ := rfl
  owners _ := rfl
  joined _ _ := nofun
  counter _ := rfl

theorem configure (h : Placed p) : Placed (p.configure n) where
  places op := by
    rw [runs_configure]
    exact h.places op
  owners := h.owners
  joined w t ht hn := by
    rcases joined_configure ht with ht | hw
    · exact (h.joined w t ht hn).imp_left (List.mem_append_left _)
    · exact .inl hw
  counter d := by
    rw [occupies_configure]
    exact h.counter d

theorem cancel (h : Placed p) :
    Placed { p with operations := p.operations.modify o ({ · with canceled := true }) } where
  places op := by
    have := h.places op
    simp only [completed_cancel, List.length_modify]
    exact this
  owners op := by
    simp only [List.length_modify]
    exact h.owners op
  joined := h.joined
  counter d := by
    have same : isOf (p.operations.modify o ({ · with canceled := true })) = isOf p.operations :=
      funext₂ fun _ _ => isOf_modify fun _ => rfl
    have ⟨hcounts, hoccupies⟩ := counts_congr_of (d := d) same
    simp only [hcounts, hoccupies, same]
    exact h.counter d

theorem enter (h : Placed p) (he : call.Entry) : Placed (p.enter call) where
  places op := by
    have : call.carries op = false := by cases he <;> rfl
    simp only [AsyncPool.enter, List.countP_append, List.countP_singleton, this]
    exact h.places op
  owners op := by
    have : call.owns op = false := by cases he <;> rfl
    simp only [AsyncPool.enter, List.countP_append, List.countP_singleton, this]
    exact h.owners op
  joined w t ht hn := by
    refine (h.joined w t ht hn).imp_right fun ⟨x, hx, hw⟩ => ⟨x, List.mem_append_left _ hx, hw⟩
  counter d := by
    have : counts p.operations d call = false := by cases he <;> rfl
    simpa [AsyncPool.enter, this] using h.counter d

theorem steps (h : Placed p) (hs : p.Steps p') : Placed p' := by
  cases hs
  case configure => exact h.configure
  case enter he => exact h.enter he
  case cancel => exact h.cancel
  case resume hk hs hq hj => exact h.resume hk hs hq
  case work hw hs => exact h.work hw hs

end Placed

theorem Reachable.placed (h : Reachable (fun p a => p.isOrderly a) p) : Placed p :=
  Reach.invariant (I := Placed) (fun _ _ _ ho hn h => h.steps (next_steps ho hn)) h .empty

end AsyncPool

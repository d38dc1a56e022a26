import LibAdb.Execution.Batch
import LibAdb.Library.Reach
import LibAdb.Library.Threads

namespace Batch

-- The steps of `next`, one constructor for each path through the loops.
inductive Step (b : Batch) (s : State) : State → Prop
  | spawn :
    s.caller = .spawning → s.workers.length < b.workersCount →
    Step b s { s with workers := s.workers ++ [.ready] }
  | spawned :
    s.caller = .spawning → b.workersCount ≤ s.workers.length →
    Step b s { s with caller := .joining 0 }
  | join :
    s.caller = .joining k → s.workers[k]? = some .returned →
    Step b s { s with caller := .joining (k + 1) }
  | joined :
    s.caller = .joining k → s.workers[k]? = none →
    Step b s { s with caller := .returned }
  | fetch :
    s.workers[w]? = some .ready →
    Step b s { s with
      nextIndex := s.nextIndex + 1
      workers := s.workers.set w (.fetched s.nextIndex) }
  | stop :
    s.workers[w]? = some (.fetched i) → b.addresses[i]? = none →
    Step b s { s with workers := s.workers.set w .returned }
  | call :
    s.workers[w]? = some (.fetched i) → b.addresses[i]? = some address →
    Step b s { s with
      workers := s.workers.set w (.running i address)
      begun := s.begun ++ [(i, address)] }
  | finish (outcome : Outcome) :
    s.workers[w]? = some (.running i address) →
    Step b s { s with
      workers := s.workers.set w .ready
      ended := s.ended ++ [(i, address)]
      log := s.log ++ outcome.report address }

variable {b : Batch} {s s' : State} {a : Action} {as : List Action}

theorem Step.of_callerStep (h : b.callerStep s = some s') : Step b s s' := by
  unfold callerStep at h
  split at h
  case h_1 hc =>
    split at h <;> cases h
    case isTrue hw  => exact .spawn hc hw
    case isFalse hw => exact .spawned hc (Nat.le_of_not_lt hw)
  case h_2 hc =>
    split at h <;> cases h
    case h_1 hk => exact .joined hc hk
    case h_2 hk => exact .join hc hk
  case h_3 => cases h

theorem Step.of_workerStep (h : b.workerStep s w = some s') : Step b s s' := by
  unfold workerStep at h
  split at h
  case h_1 hw =>
    cases h
    exact .fetch hw
  case h_2 hw =>
    split at h <;> cases h
    case h_1 hi => exact .stop hw hi
    case h_2 hi => exact .call hw hi
  case h_3 => cases h

theorem Step.of_finishStep (h : finishStep s w o = some s') : Step b s s' := by
  unfold finishStep at h
  split at h <;> cases h
  case h_1 hw => exact .finish o hw

theorem Step.of_next (h : b.next s a = some s') : Step b s s' := by
  cases a
  case caller => exact .of_callerStep h
  case worker => exact .of_workerStep h
  case finish => exact .of_finishStep h

def Worker.holds (c : Nat × Bytes) : Worker → Bool
  | .fetched i         => i == c.1
  | .running i address => (i, address) == c
  | _                  => false

def Worker.runs (c : Nat × Bytes) : Worker → Bool
  | .running i address => (i, address) == c
  | _                  => false

def Worker.isRunning : Worker → Bool
  | .running _ _ => true
  | _            => false

-- Every index below the shared one is with one worker or behind it.
structure Consistent (b : Batch) (s : State) : Prop where
  fetched : .fetched i ∈ s.workers → i < s.nextIndex
  past    : .returned ∈ s.workers → b.addresses.length < s.nextIndex
  called  : c ∈ s.begun → b.addresses[c.1]? = some c.2
  begun   : s.begun.count c = s.workers.countP (Worker.runs c) + s.ended.count c
  taken   : b.addresses[c.1]? = some c.2 →
    s.workers.countP (Worker.holds c) + s.ended.count c = (decide (c.1 < s.nextIndex)).toNat

-- The caller waits for all workers, and has waited for those it has joined.
structure Waits (b : Batch) (s : State) : Prop where
  spawned : s.workers.length ≤ b.workersCount
  all     : s.caller ≠ .spawning → s.workers.length = b.workersCount
  joined  : s.caller = .joining k → j < k → s.workers[j]? = some .returned
  done    : s.caller = .returned → w ∈ s.workers → w = .returned

namespace Consistent

theorem initial : Consistent b {} where
  fetched h := by cases h
  past h    := by cases h
  called h  := by cases h
  begun     := rfl
  taken _   := rfl

theorem spawn (h : Consistent b s) :
    Consistent b { s with workers := s.workers ++ [.ready] } where
  fetched hi := h.fetched (by simpa using hi)
  past hr    := h.past (by simpa using hr)
  called     := h.called
  begun      := by
    simp only [List.countP_append, List.countP_singleton, Worker.runs]
    exact h.begun
  taken hc   := by
    simp only [List.countP_append, List.countP_singleton, Worker.holds]
    exact h.taken hc

theorem of_caller (h : Consistent b s) (c : Caller) : Consistent b { s with caller := c } where
  __ := h

theorem replace (h : Consistent b s) (hw : s.workers[w]? = some x)
    (hs : s'.workers = s.workers.set w y) (index : s.nextIndex ≤ s'.nextIndex)
    (fetched : ∀ i, y = .fetched i → i < s'.nextIndex)
    (past : y = .returned → b.addresses.length < s'.nextIndex)
    (called : ∀ c ∈ s'.begun, c ∈ s.begun ∨ b.addresses[c.1]? = some c.2)
    (begun : ∀ c, s'.begun.count c + (x.runs c).toNat + s.ended.count c =
      s.begun.count c + (y.runs c).toNat + s'.ended.count c)
    (taken : ∀ c, b.addresses[c.1]? = some c.2 →
      (y.holds c).toNat + s'.ended.count c + (decide (c.1 < s.nextIndex)).toNat =
      (x.holds c).toNat + s.ended.count c + (decide (c.1 < s'.nextIndex)).toNat) :
    Consistent b s' where
  fetched {i} hi := by
    cases List.mem_or_eq_of_mem_set (hs ▸ hi)
    case inl hi => exact Nat.lt_of_lt_of_le (h.fetched hi) index
    case inr hi => exact fetched i hi.symm
  past hr := by
    cases List.mem_or_eq_of_mem_set (hs ▸ hr)
    case inl hr => exact Nat.lt_of_lt_of_le (h.past hr) index
    case inr hr => exact past hr.symm
  called {c} hc := (called c hc).elim h.called id
  begun {c} := by
    have count := List.countP_set_add (b := y) (p := Worker.runs c) hw
    have before := h.begun (c := c)
    have change := begun c
    rw [hs]
    omega
  taken {c} hc := by
    have count := List.countP_set_add (b := y) (p := Worker.holds c) hw
    have before := h.taken hc
    have change := taken c hc
    rw [hs]
    omega

theorem fetch (h : Consistent b s) (hw : s.workers[w]? = some .ready) :
    Consistent b { s with
      nextIndex := s.nextIndex + 1
      workers := s.workers.set w (.fetched s.nextIndex) } := by
  apply h.replace hw rfl
  case index => exact Nat.le_succ _
  case fetched =>
    rintro _ ⟨⟩
    exact Nat.lt_succ_self _
  case past   => rintro ⟨⟩
  case called => exact fun _ => .inl
  case begun  => exact fun _ => rfl
  case taken  =>
    intro c _
    simp only [Worker.holds]
    cases Nat.lt_trichotomy c.1 s.nextIndex
    case inl hc =>
      have before := Nat.ne_of_gt hc
      simp [before, hc, Nat.lt_succ_of_lt hc]
    case inr hc =>
      cases hc
      case inl hc => simp [hc, Nat.add_comm]
      case inr hc =>
        have after := Nat.ne_of_lt hc
        have unfetched := Nat.lt_asymm hc
        simp [after, unfetched, Nat.not_lt.mpr hc]

theorem stop (h : Consistent b s) (hw : s.workers[w]? = some (.fetched i))
    (hi : b.addresses[i]? = none) :
    Consistent b { s with workers := s.workers.set w .returned } := by
  apply h.replace hw rfl
  case index   => exact Nat.le_refl _
  case fetched => rintro _ ⟨⟩
  case past =>
    intro _
    calc
      _ ≤ i := List.getElem?_eq_none_iff.mp hi
      _ < _ := h.fetched (List.mem_of_getElem? hw)
  case called => exact fun _ => .inl
  case begun  => exact fun _ => rfl
  case taken  =>
    intro c hc
    have other : i ≠ c.1 := by
      rintro rfl
      cases hi.symm.trans hc
    simp only [Worker.holds, beq_false_of_ne other]

theorem call (h : Consistent b s) (hw : s.workers[w]? = some (.fetched i))
    (hi : b.addresses[i]? = some address) :
    Consistent b { s with
      workers := s.workers.set w (.running i address)
      begun := s.begun ++ [(i, address)] } := by
  apply h.replace hw rfl
  case index   => exact Nat.le_refl _
  case fetched => rintro _ ⟨⟩
  case past    => rintro ⟨⟩
  case called =>
    intro c hc
    apply (List.mem_append.mp hc).imp id
    intro hc
    rw [List.mem_singleton.mp hc]
    exact hi
  case begun =>
    intro c
    simp only [List.count_append, List.count_singleton, Worker.runs]
    cases (i, address) == c <;> rfl
  case taken =>
    intro c hc
    have same : ((i, address) == c) = (i == c.1) := by
      apply Bool.eq_iff_iff.mpr
      simp only [beq_iff_eq]
      refine ⟨congrArg Prod.fst, ?_⟩
      rintro rfl
      cases hi.symm.trans hc
      rfl
    simp only [Worker.holds, same]

theorem finish (h : Consistent b s) (hw : s.workers[w]? = some (.running i address)) (log) :
    Consistent b { s with
      workers := s.workers.set w .ready
      ended := s.ended ++ [(i, address)]
      log := log } := by
  apply h.replace hw rfl
  case index   => exact Nat.le_refl _
  case fetched => rintro _ ⟨⟩
  case past    => rintro ⟨⟩
  case called  => exact fun _ => .inl
  case begun =>
    intro c
    simp only [List.count_append, List.count_singleton, Worker.runs]
    cases (i, address) == c
    case false => rfl
    case true  => exact Nat.add_right_comm ..
  case taken =>
    intro c _
    simp only [List.count_append, List.count_singleton, Worker.holds]
    cases (i, address) == c
    case false => simp
    case true =>
      simp only [Bool.toNat_false, Bool.toNat_true, if_true]
      omega

theorem step (h : Consistent b s) (hs : Step b s s') : Consistent b s' := by
  cases hs
  case spawn            => exact h.spawn
  case spawned          => exact h.of_caller _
  case join             => exact h.of_caller _
  case joined           => exact h.of_caller _
  case fetch hw         => exact h.fetch hw
  case stop hw hi       => exact h.stop hw hi
  case call hw hi       => exact h.call hw hi
  case finish hw        => exact h.finish hw _

end Consistent

namespace Waits

theorem initial : Waits b {} where
  spawned   := Nat.zero_le _
  all h     := absurd rfl h
  joined h  := by cases h
  done h    := by cases h

theorem set (h : Waits b s) (hw : s.workers[w]? = some x) (hx : x ≠ .returned)
    (hs : s'.workers = s.workers.set w y) (hc : s'.caller = s.caller) : Waits b s' where
  spawned := by
    rw [hs, List.length_set]
    exact h.spawned
  all hn := by
    rw [hs, List.length_set]
    exact h.all (hc ▸ hn)
  joined {k j} hk hj := by
    have before := h.joined (hc ▸ hk) hj
    rw [hs, List.getElem?_set_ne]
    · exact before
    · rintro rfl
      exact hx (Option.some.inj (hw.symm.trans before))
  done hd := absurd (h.done (hc ▸ hd) (List.mem_of_getElem? hw)) hx

theorem step (h : Waits b s) (hs : Step b s s') : Waits b s' := by
  cases hs
  case spawn hc hw =>
    have running (hn : s.caller ≠ .spawning) : False := hn hc
    constructor
    case spawned =>
      rw [List.length_append]
      exact hw
    case all    => exact fun hn => (running hn).elim
    case joined => exact fun hk => by cases hc.symm.trans hk
    case done   => exact fun hd => by cases hc.symm.trans hd
  case spawned hc hw =>
    constructor
    case spawned => exact h.spawned
    case all     => exact fun _ => Nat.le_antisymm h.spawned hw
    case joined =>
      rintro _ _ ⟨⟩ hj
      cases hj
    case done => rintro _ ⟨⟩
  case join k hc hk =>
    constructor
    case spawned => exact h.spawned
    case all     => exact fun _ => h.all (by simp [hc])
    case joined =>
      rintro _ j ⟨⟩ hj
      cases Nat.lt_succ_iff_lt_or_eq.mp hj
      case inl hj => exact h.joined hc hj
      case inr hj => exact hj ▸ hk
    case done => rintro _ ⟨⟩
  case joined k hc hk =>
    constructor
    case spawned => exact h.spawned
    case all     => exact fun _ => h.all (by simp [hc])
    case joined  => rintro _ _ ⟨⟩
    case done =>
      intro w _ hw
      have ⟨j, hj⟩ := List.mem_iff_getElem?.mp hw
      have inside := (List.getElem?_eq_some_iff.mp hj).choose
      have before := h.joined hc (Nat.lt_of_lt_of_le inside (List.getElem?_eq_none_iff.mp hk))
      exact Option.some.inj (hj.symm.trans before)
  case fetch hw     => exact h.set hw (by rintro ⟨⟩) rfl rfl
  case stop hw _    => exact h.set hw (by rintro ⟨⟩) rfl rfl
  case call hw _    => exact h.set hw (by rintro ⟨⟩) rfl rfl
  case finish hw    => exact h.set hw (by rintro ⟨⟩) rfl rfl

end Waits

-- The steps that are left: three for an index nobody has fetched, three for a worker that is not
-- yet started, and those of the workers and of the caller from where they are.
def Worker.left (n : Nat) : Worker → Nat
  | .ready       => 2
  | .fetched i   => if i < n then 4 else 1
  | .running _ _ => 3
  | .returned    => 0

def Caller.left (n : Nat) : Caller → Nat
  | .spawning  => n + 2
  | .joining k => n - k + 1
  | .returned  => 0

def workersLeft (n : Nat) : List Worker → Nat
  | []      => 0
  | w :: ws => w.left n + workersLeft n ws

def stepsLeft (b : Batch) (s : State) : Nat :=
  3 * (b.addresses.length - s.nextIndex) + 3 * (b.workersCount - s.workers.length) +
  workersLeft b.addresses.length s.workers + s.caller.left b.workersCount

theorem workersLeft_append : workersLeft n (ws ++ [w]) = workersLeft n ws + w.left n := by
  induction ws
  case nil          => exact Nat.add_comm ..
  case cons _ _ ih  => simp only [List.cons_append, workersLeft, ih, Nat.add_assoc]

theorem workersLeft_set (h : ws[k]? = some x) :
    workersLeft n (ws.set k y) + x.left n = workersLeft n ws + y.left n := by
  induction ws generalizing k
  case nil => cases h
  case cons w ws ih =>
    cases k
    case zero =>
      cases h
      simp only [List.set_cons_zero, workersLeft]
      omega
    case succ k =>
      have := ih h
      simp only [List.set_cons_succ, workersLeft]
      omega

theorem Waits.stepsLeft_step (h : Waits b s) (hs : Step b s s') :
    b.stepsLeft s' + 1 = b.stepsLeft s := by
  cases hs
  case spawn hc hw =>
    simp only [stepsLeft, workersLeft_append, Worker.left, List.length_append, List.length_singleton]
    omega
  case spawned hc hw =>
    simp only [stepsLeft, hc, Caller.left]
    omega
  case join k hc hk =>
    have inside := (List.getElem?_eq_some_iff.mp hk).choose
    have := h.spawned
    simp only [stepsLeft, hc, Caller.left]
    omega
  case joined k hc hk =>
    have outside := List.getElem?_eq_none_iff.mp hk
    have := h.all (by simp [hc])
    simp only [stepsLeft, hc, Caller.left]
    omega
  case fetch hw =>
    have := workersLeft_set (n := b.addresses.length) (y := .fetched s.nextIndex) hw
    simp only [stepsLeft, Worker.left, List.length_set] at *
    split at this <;> omega
  case stop i hw hi =>
    have outside := Nat.not_lt_of_le (List.getElem?_eq_none_iff.mp hi)
    have := workersLeft_set (n := b.addresses.length) (y := .returned) hw
    simp only [stepsLeft, Worker.left, List.length_set, if_neg outside] at *
    omega
  case call i address hw hi =>
    have inside := (List.getElem?_eq_some_iff.mp hi).choose
    have := workersLeft_set (n := b.addresses.length) (y := .running i address) hw
    simp only [stepsLeft, Worker.left, List.length_set, if_pos inside] at *
    omega
  case finish hw =>
    have := workersLeft_set (n := b.addresses.length) (y := .ready) hw
    simp only [stepsLeft, Worker.left, List.length_set] at *
    omega

theorem next_of_worker {x : Worker} {w : Nat} (hw : s.workers[w]? = some x) (hx : x ≠ .returned) :
    ∃ a, (b.next s a).isSome := by
  cases x
  case ready => exact ⟨.worker w, by simp [next, workerStep, hw]⟩
  case fetched i =>
    refine ⟨.worker w, ?_⟩
    cases hi : b.addresses[i]? <;> simp [next, workerStep, hw, hi]
  case running => exact ⟨.finish w .returned, by simp [next, finishStep, hw]⟩
  case returned => exact absurd rfl hx

theorem next_of_not_returned (h : s.caller ≠ .returned) : ∃ a, (b.next s a).isSome := by
  cases hc : s.caller
  case spawning =>
    refine ⟨.caller, ?_⟩
    simp only [next, callerStep, hc]
    split <;> rfl
  case joining k =>
    cases hk : s.workers[k]?
    case none => exact ⟨.caller, by simp [next, callerStep, hc, hk]⟩
    case some w =>
      by_cases hw : w = .returned
      case pos => exact ⟨.caller, by simp [next, callerStep, hc, hk, hw]⟩
      case neg => exact next_of_worker hk hw
  case returned => exact absurd hc h

theorem exec_start_idle (hb : b.addresses.isEmpty || !b.callable)
    (h : exec b.next b.start as = some s) : as = [] ∧ s = { caller := .returned } := by
  have start : b.start = { caller := .returned } := if_pos hb
  rw [start] at h
  cases as
  case nil =>
    cases h
    exact ⟨rfl, rfl⟩
  case cons a as => cases a <;> cases h

theorem exec_stepsLeft (hw : Waits b s) (h : exec b.next s as = some s') :
    as.length + b.stepsLeft s' = b.stepsLeft s := by
  induction as generalizing s
  case nil =>
    cases h
    exact Nat.zero_add _
  case cons a as ih =>
    simp only [exec, Option.bind_eq_some_iff] at h
    obtain ⟨t, hs, ht⟩ := h
    have one := hw.stepsLeft_step (.of_next hs)
    have rest := ih (hw.step (.of_next hs)) ht
    rw [List.length_cons]
    omega

theorem Consistent.of_exec (h : exec b.next {} as = some s) : Consistent b s :=
  (Reach.of_exec h).invariant (fun _ _ _ _ hs hi => hi.step (.of_next hs)) .initial

theorem Waits.of_exec (h : exec b.next {} as = some s) : Waits b s :=
  (Reach.of_exec h).invariant (fun _ _ _ _ hs hi => hi.step (.of_next hs)) .initial

theorem Worker.holds_of_runs {w : Worker} (h : w.runs c) : w.holds c := by
  cases w
  case running => exact h
  all_goals cases h

namespace Consistent

theorem begun_nodup (h : Consistent b s) : (s.begun.map Prod.fst).Nodup := by
  apply List.Nodup.map_on
  case H =>
    intro c hc d hd hi
    have same := (h.called hc).symm.trans ((congrArg (b.addresses[·]?) hi).trans (h.called hd))
    exact Prod.ext hi (Option.some.inj same)
  case d =>
    refine List.nodup_iff_count_le_one.mpr fun c => ?_
    by_cases hc : c ∈ s.begun
    case neg => simp [List.count_eq_zero_of_not_mem hc]
    case pos =>
      calc
        s.begun.count c = s.workers.countP (Worker.runs c) + s.ended.count c := h.begun
        _ ≤ s.workers.countP (Worker.holds c) + s.ended.count c :=
          Nat.add_le_add_right (List.countP_mono_left fun _ _ => Worker.holds_of_runs) _
        _ = _ := h.taken (h.called hc)
        _ ≤ 1 := Bool.toNat_le _

theorem count_of_returned (h : Consistent b s) (hw : ∀ w ∈ s.workers, w = .returned)
    (hs : s.workers ≠ []) (hc : b.addresses[c.1]? = some c.2) :
    s.begun.count c = 1 ∧ s.ended.count c = 1 := by
  have ⟨w, hm⟩ := List.exists_mem_of_ne_nil _ hs
  have inside := (List.getElem?_eq_some_iff.mp hc).choose
  have past := h.past (hw w hm ▸ hm)
  have idle (p : Worker → Bool) (hp : p .returned = false) : s.workers.countP p = 0 :=
    List.countP_eq_zero.mpr fun w hm => by simp [hw w hm, hp]
  have taken := h.taken hc
  have begun := h.begun (c := c)
  rw [idle _ rfl, decide_eq_true (Nat.lt_trans inside past)] at taken
  rw [idle _ rfl] at begun
  simp only [Bool.toNat_true] at taken
  omega

end Consistent

theorem workersCount_pos (h : b.addresses ≠ []) : 0 < b.workersCount := by
  have := List.length_pos_iff.mpr h
  unfold workersCount
  split <;> omega

theorem running_le (h : exec b.next b.start as = some s) :
    s.workers.countP Worker.isRunning ≤ b.workersCount := by
  by_cases hb : b.addresses.isEmpty || !b.callable
  case pos =>
    rw [(exec_start_idle hb h).right]
    exact Nat.zero_le _
  case neg =>
    rw [start, if_neg hb] at h
    exact Nat.le_trans List.countP_le_length (Waits.of_exec h).spawned

-- `for_each` runs no more tasks at once than either of its options allows.
theorem running_forEach_le (hb : b.maxThreads = forEachThreads maxParallel maxConnections)
    (h : exec b.next b.start as = some s) :
    (0 < maxConnections → s.workers.countP Worker.isRunning ≤ maxConnections) ∧
      (0 < maxParallel → s.workers.countP Worker.isRunning ≤ maxParallel) := by
  have limited := running_le h
  rw [workersCount, hb, forEachThreads] at limited
  grind

theorem running_forEach_le_two : ∃ s : State, 1 < s.workers.countP Worker.isRunning ∧
    s.workers.countP Worker.isRunning ≤ 2 := by
  have ⟨s, hs, many⟩ : ∃ s, exec (next ⟨[[1], [2], [3]], true, 2⟩) (start ⟨[[1], [2], [3]], true, 2⟩)
      [.caller, .caller, .worker 0, .worker 1, .worker 0, .worker 1] = some s ∧
        1 < s.workers.countP Worker.isRunning := ⟨_, rfl, by decide⟩
  have limit : Batch.maxThreads ⟨[[1], [2], [3]], true, 2⟩ = forEachThreads 5 2 := rfl
  exact ⟨s, many, (running_forEach_le limit hs).left (by decide)⟩

-- Every address is handed to the task once, whatever the tasks throw and however the threads
-- interleave, and the caller returns after a fixed number of steps.
theorem runOnDevices_calls_each_once (h : exec b.next b.start as = some s) :
    s.workers.countP Worker.isRunning ≤ b.workersCount ∧
    (s.begun.map Prod.fst).Nodup ∧
    (∀ c ∈ s.begun, b.addresses[c.1]? = some c.2) ∧
    (s.caller = .returned → s.workers.countP Worker.isRunning = 0 ∧
      (b.callable → ∀ i address, b.addresses[i]? = some address →
        s.begun.count (i, address) = 1 ∧ s.ended.count (i, address) = 1)) ∧
    (s.caller ≠ .returned → ∃ a, (b.next s a).isSome) ∧
    as.length + b.stepsLeft s = b.stepsLeft b.start := by
  refine ⟨running_le h, ?_⟩
  by_cases hb : b.addresses.isEmpty || !b.callable
  case pos =>
    obtain ⟨rfl, rfl⟩ := exec_start_idle hb h
    have start : b.start = { caller := .returned } := if_pos hb
    refine ⟨List.nodup_nil, by simp, fun _ => ⟨rfl, ?_⟩, absurd rfl, ?_⟩
    · intro hc i address hi
      simp only [hc, Bool.not_true, Bool.or_false, List.isEmpty_iff] at hb
      simp [hb] at hi
    · rw [start]
      exact Nat.zero_add _
  case neg =>
    have start : b.start = {} := if_neg hb
    rw [start] at h ⊢
    have consistent := Consistent.of_exec h
    have waits := Waits.of_exec h
    refine ⟨consistent.begun_nodup, fun _ => consistent.called, fun hd => ?_,
      next_of_not_returned, exec_stepsLeft .initial h⟩
    have idle := fun w => waits.done (w := w) hd
    refine ⟨List.countP_eq_zero.mpr fun w hw => by simp [idle w hw, Worker.isRunning], ?_⟩
    intro _ i address hi
    apply consistent.count_of_returned idle _ hi
    intro hs
    have nonempty : b.addresses ≠ [] := by
      intro hn
      simp [hn] at hi
    have all := waits.all (by simp [hd])
    rw [hs] at all
    exact Nat.ne_of_lt (workersCount_pos nonempty) all

-- The same device twice, with two workers whose calls both throw.
theorem runOnDevices_calls_both :
    ∃ s, exec (next { addresses := [ascii "d", ascii "d"] })
        (start { addresses := [ascii "d", ascii "d"] })
        [.caller, .worker 0, .caller, .worker 1, .worker 1, .worker 0, .caller,
          .finish 1 .threwUnknown, .finish 0 (.threw (ascii "lost")), .worker 0, .worker 0, .caller,
          .worker 1, .worker 1, .caller, .caller] = some s ∧
      s.caller = .returned ∧
      ∀ i address, [ascii "d", ascii "d"][i]? = some address →
        s.begun.count (i, address) = 1 ∧ s.ended.count (i, address) = 1 := by
  have run : (exec (next { addresses := [ascii "d", ascii "d"] })
      (start { addresses := [ascii "d", ascii "d"] })
      [.caller, .worker 0, .caller, .worker 1, .worker 1, .worker 0, .caller,
        .finish 1 .threwUnknown, .finish 0 (.threw (ascii "lost")), .worker 0, .worker 0, .caller,
        .worker 1, .worker 1, .caller, .caller]).any (·.caller = .returned) := by
    decide
  have ⟨s, hs, hc⟩ := (Option.any_eq_true ..).mp run
  have done := of_decide_eq_true hc
  have ⟨_, _, _, returned, _, _⟩ := runOnDevices_calls_each_once hs
  exact ⟨s, hs, done, (returned done).right rfl⟩

end Batch

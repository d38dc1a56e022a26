import LibAdb.Execution.EventLoop

namespace EventLoop

variable {s s' : EventLoop} {a : Action} {k : Nat} {c : LoopCall} {th : LoopThread} {event : Bool}

theorem step_of_next (h : s.next a = some s') : s.step a = some s' := by
  rw [next] at h
  split at h
  case isTrue => cases h
  case isFalse => exact h

theorem mem_tell {loop : Nat} {p : Nat × Nat} (h : p ∈ s.tell loop) :
    p ∈ s.told ∨ (loop ∉ s.ended ∧ p = (loop, s.queued)) := by
  rw [tell] at h
  split at h
  case isTrue => exact .inl h
  case isFalse hl =>
    rcases List.mem_append.mp h with h | h
    · exact .inl h
    · exact .inr ⟨by simpa using hl, List.mem_singleton.mp h⟩

theorem returned_set (hk : s.calls[k]? = some c) (hc : c ≠ .returned) {g : Nat} {c' : LoopCall}
    (h : s.calls[g]? = some .returned) : (s.calls.set k c')[g]? = some .returned := by
  rw [List.getElem?_set_ne]
  · exact h
  · rintro rfl
    exact hc (Option.some.inj (hk.symm.trans h))

section Termination

-- `TerminateLoop` is called for a loop that has reset the flag.
def hasEntered (s : EventLoop) (loop : Nat) : Bool :=
  s.ended.contains loop || s.thread.any fun th => th.loop = loop && th.point ≠ .spawned

def entersFirst (s : EventLoop) : Action → Bool
  | .resume k =>
    match s.calls[k]? with
    | some (.terminate loop) => s.hasEntered loop
    | _ => true
  | _ => true

structure Heard (s : EventLoop) : Prop where
  ended  : ∀ g ∈ s.ended, s.calls[g]? = some .returned
  thread : ∀ th, s.thread = some th →
    s.calls[th.loop]? = some .returned ∧ (th.point = .exited ↔ th.loop ∈ s.ended)
  told   : ∀ p ∈ s.told, p.1 ∈ s.ended ∨
    ∃ th, s.thread = some th ∧ th.loop = p.1 ∧ th.point ≠ .spawned ∧ s.terminate = true

namespace Heard

theorem keep (h : Heard s) (thread : s'.thread = s.thread) (ended : s'.ended = s.ended)
    (told : s'.told = s.told) (terminate : s.terminate = true → s'.terminate = true)
    (calls : ∀ g : Nat, s.calls[g]? = some .returned → s'.calls[g]? = some .returned) :
    Heard s' := by
  constructor
  case ended =>
    rw [ended]
    exact fun g hg => calls g (h.ended g hg)
  case thread =>
    rw [thread, ended]
    exact fun th ht => ⟨calls _ (h.thread th ht).1, (h.thread th ht).2⟩
  case told =>
    rw [told, thread, ended]
    intro p hp
    rcases h.told p hp with he | ⟨th, ht, hl, hn, hf⟩
    · exact .inl he
    · exact .inr ⟨th, ht, hl, hn, terminate hf⟩

theorem spawn (h : Heard s) (hk : s.calls[k]? = some .spawn) (none : s.thread = none) :
    Heard { s with thread := some { loop := k }, calls := s.calls.set k .returned } := by
  have calls {g : Nat} (hg : s.calls[g]? = some .returned) :
      (s.calls.set k .returned)[g]? = some .returned := returned_set hk (by simp) hg
  constructor
  case ended => exact fun g hg => calls (h.ended g hg)
  case thread =>
    rintro th ⟨⟩
    refine ⟨?_, by simp, fun hm => ?_⟩
    · simp [(List.getElem?_eq_some_iff.mp hk).choose]
    · cases hk.symm.trans (h.ended k hm)
  case told =>
    intro p hp
    rcases h.told p hp with he | ⟨th, ht, -⟩
    · exact .inl he
    · cases none.symm.trans ht

theorem terminate {loop : Nat} (h : Heard s) (hk : s.calls[k]? = some (.terminate loop))
    (entered : s.hasEntered loop) :
    Heard { s with terminate := true, told := s.tell loop, calls := s.calls.set k .wake } := by
  have calls {g : Nat} (hg : s.calls[g]? = some .returned) :
      (s.calls.set k .wake)[g]? = some .returned := returned_set hk (by simp) hg
  constructor
  case ended => exact fun g hg => calls (h.ended g hg)
  case thread => exact fun th ht => ⟨calls (h.thread th ht).1, (h.thread th ht).2⟩
  case told =>
    intro p hp
    rcases mem_tell hp with hp | ⟨hn, rfl⟩
    · rcases h.told p hp with he | ⟨th, ht, hl, hs, -⟩
      · exact .inl he
      · exact .inr ⟨th, ht, hl, hs, rfl⟩
    · have running := (Bool.or_eq_true_iff.mp entered).resolve_left (by simpa using hn)
      obtain ⟨th, ht, hp⟩ := (Option.any_eq_true ..).mp running
      have ⟨hl, hs⟩ := Bool.and_eq_true_iff.mp hp
      exact .inr ⟨th, ht, of_decide_eq_true hl, of_decide_eq_true hs, rfl⟩

theorem join (h : Heard s) (hk : s.calls[k]? = some .join)
    (exited : s.thread.all (·.point = .exited)) :
    Heard { s with thread := none, calls := s.calls.set k .returned } := by
  constructor
  case ended => exact fun g hg => returned_set hk (by simp) (h.ended g hg)
  case thread => exact fun _ => nofun
  case told =>
    intro p hp
    rcases h.told p hp with he | ⟨th, ht, hl, -⟩
    · exact .inl he
    · have : th.point = .exited := by simpa [ht] using exited
      exact .inl (hl ▸ (h.thread th ht).2.mp this)

theorem resume {r : EventLoop × LoopCall} (h : Heard s) (hp : s.entersFirst (.resume k))
    (hk : s.calls[k]? = some c) (hr : s.resume k c = some r) :
    Heard { r.1 with calls := s.calls.set k r.2 } := by
  have calls (c' : LoopCall) (hc : c ≠ .returned) (g : Nat) (hg : s.calls[g]? = some .returned) :
      (s.calls.set k c')[g]? = some .returned := returned_set hk hc hg
  cases c <;> simp only [EventLoop.resume, Option.ite_none_right_eq_some] at hr
  case spawn =>
    split at hr <;> cases hr
    case isTrue => exact h.keep rfl rfl rfl id (calls _ nofun)
    case isFalse hn => exact h.spawn hk (by simpa using hn)
  case terminate loop =>
    cases hr
    refine h.terminate hk ?_
    simpa only [entersFirst, hk] using hp
  case join =>
    obtain ⟨exited, hr⟩ := hr
    cases hr
    exact h.join hk exited
  case wait =>
    obtain ⟨-, hr⟩ := hr
    cases hr
    exact h.keep rfl rfl rfl id (calls _ nofun)
  case returned => cases hr
  all_goals
    cases hr
    exact h.keep rfl rfl rfl id (calls _ nofun)

theorem move (h : Heard s) (ht : s.thread = some th) {point : LoopPoint}
    (thread : s'.thread = some { th with point })
    (inside : th.point ≠ .exited ∧ point ≠ .exited) (entered : point ≠ .spawned)
    (ended : s'.ended = s.ended) (told : s'.told = s.told)
    (terminate : th.point ≠ .spawned → s.terminate = true → s'.terminate = true)
    (calls : s'.calls = s.calls) : Heard s' := by
  have ⟨returned, exited⟩ := h.thread th ht
  constructor
  case ended => simpa only [ended, calls] using h.ended
  case thread =>
    rw [thread, ended, calls]
    rintro _ ⟨⟩
    exact ⟨returned, fun he => absurd he inside.2, fun hm => absurd (exited.mpr hm) inside.1⟩
  case told =>
    rw [thread, ended, told]
    intro p hp
    rcases h.told p hp with he | ⟨th', ht', hl, hs, hf⟩
    · exact .inl he
    · cases ht.symm.trans ht'
      exact .inr ⟨_, rfl, hl, entered, terminate hs hf⟩

theorem exit (h : Heard s) (ht : s.thread = some th) :
    Heard { s with ended := s.ended ++ [th.loop], thread := some { th with point := .exited } } := by
  have ⟨returned, _⟩ := h.thread th ht
  constructor
  case ended =>
    intro g hg
    rcases List.mem_append.mp hg with hg | hg
    · exact h.ended g hg
    · rw [List.mem_singleton.mp hg]
      exact returned
  case thread =>
    rintro _ ⟨⟩
    exact ⟨returned, by simp⟩
  case told =>
    intro p hp
    refine .inl (List.mem_append.mpr ?_)
    rcases h.told p hp with he | ⟨th', ht', hl, -⟩
    · exact .inl he
    · cases ht.symm.trans ht'
      exact .inr (List.mem_singleton.mpr hl.symm)

theorem loop {r : EventLoop × LoopPoint} (h : Heard s) (ht : s.thread = some th)
    (hr : s.loop event th = some r) :
    Heard { r.1 with thread := some { th with point := r.2 } } := by
  rw [EventLoop.loop] at hr
  split at hr
  case h_1 hp =>
    cases hr
    exact h.move ht rfl (by simp [hp]) nofun rfl rfl (absurd hp) rfl
  case h_2 hp =>
    split at hr <;> cases hr
    case isTrue => exact h.exit ht
    case isFalse => exact h.move ht rfl (by simp [hp]) nofun rfl rfl (fun _ => id) rfl
  case h_3 hp =>
    split at hr <;> cases hr
    exact h.move ht rfl (by simp [hp]) nofun rfl rfl (fun _ => id) rfl
  case h_4 hp =>
    cases hr
    exact h.move ht rfl (by simp [hp]) nofun rfl rfl (fun _ => id) rfl
  case h_5 hp =>
    split at hr <;> cases hr
    all_goals exact h.move ht rfl (by simp [hp]) nofun rfl rfl (fun _ => id) rfl
  case h_6 hp =>
    cases hr
    exact h.move ht rfl (by simp [hp]) nofun rfl rfl (fun _ => id) rfl
  case h_7 => cases hr

theorem step (h : Heard s) (hp : s.entersFirst a) (hs : s.step a = some s') : Heard s' := by
  cases a <;> simp only [EventLoop.step, Option.ite_none_right_eq_some, Option.bind_eq_some_iff,
    Option.map_eq_some_iff] at hs
  case call c =>
    obtain ⟨-, hs⟩ := hs
    cases hs
    refine h.keep rfl rfl rfl id fun g hg => ?_
    rw [List.getElem?_append_left (List.getElem?_eq_some_iff.mp hg).choose]
    exact hg
  case resume k =>
    obtain ⟨c, hk, r, hr, rfl⟩ := hs
    exact h.resume hp hk hr
  case loop event =>
    obtain ⟨th, ht, r, hr, rfl⟩ := hs
    exact h.loop ht hr

theorem of_reachable (h : Reachable (fun s a => s.entersFirst a) s) : Heard s :=
  h.invariant (fun _ _ _ hp hs h => h.step hp (step_of_next hs)) ⟨nofun, nofun, nofun⟩

end Heard

theorem told_loop_finds_flag (h : Reachable (fun s a => s.entersFirst a) s)
    (ht : s.thread = some th) (hp : th.point = .poll) {n : Nat} (told : (th.loop, n) ∈ s.told) :
    s.terminate = true := by
  have heard := Heard.of_reachable h
  rcases heard.told _ told with he | ⟨-, -, -, -, hf⟩
  · have := (heard.thread th ht).2.mpr he
    cases hp.symm.trans this
  · exact hf

section Samples

theorem told_loop_finds_flag_sample : ∃ (s : EventLoop) (th : LoopThread),
    Reachable (fun s a => s.entersFirst a) s ∧ s.thread = some th ∧ th.point = .poll ∧
      (th.loop, 0) ∈ s.told ∧ s.terminate = true := by
  have ⟨s, reached, ht, told⟩ : ∃ s : EventLoop, Reachable (fun s a => s.entersFirst a) s ∧
      s.thread = some { loop := 0, point := .poll } ∧ (0, 0) ∈ s.told :=
    Reach.exists_of_guarded (fun _ _ h => h) [.call .start, .resume 0, .resume 0, .resume 0,
      .loop false, .loop false, .call .stop, .resume 1, .resume 1, .resume 1] (by decide)
  exact ⟨s, _, reached, ht, rfl, told, told_loop_finds_flag reached ht rfl told⟩

-- `stop` comes before the new thread has entered `Loop`, which resets the flag, takes the interrupt
-- and waits.
theorem told_loop_blocks : ∃ (s : EventLoop) (th : LoopThread), Reachable (fun _ _ => True) s ∧
    s.thread = some th ∧ th.point = .poll ∧ (th.loop, 0) ∈ s.told ∧ s.terminate = false ∧
      s.next (.loop false) = none := by
  have ⟨s, reached, ht, rest⟩ : ∃ s : EventLoop, Reachable (fun _ _ => True) s ∧
      s.thread = some { loop := 0, point := .poll } ∧ (0, 0) ∈ s.told ∧ s.terminate = false ∧
        s.next (.loop false) = none :=
    Reach.exists_of_exec [.call .start, .resume 0, .resume 0, .resume 0, .call .stop, .resume 1,
      .resume 1, .resume 1, .resume 1, .loop false, .loop false, .loop false, .loop false,
      .loop false, .loop false] (by decide)
  exact ⟨s, _, reached, ht, rfl, rest⟩

end Samples

end Termination

section Functions

-- `TerminateLoop` is not called between a flush and the test of the flag when a function has been
-- queued there.
def flushesFirst (s : EventLoop) : Action → Bool
  | .resume k =>
    match s.calls[k]? with
    | some (.terminate _) => s.runQueue.isEmpty || s.thread.all (·.point ≠ .check)
    | _ => true
  | _ => true

def inHand : Option LoopThread → List Nat
  | some { point := .function f, .. } => [f]
  | _ => []

structure Served (s : EventLoop) : Prop where
  order : s.ran ++ inHand s.thread ++ s.runQueue = List.range s.queued
  told  : ∀ p ∈ s.told, p.2 ≤ s.queued
  check : ∀ th, s.thread = some th → th.point = .check → s.terminate = true →
    ∀ p ∈ s.told, p.2 ≤ s.ran.length
  ended : ∀ p ∈ s.told, p.1 ∈ s.ended → p.2 ≤ s.ran.length

theorem inHand_of_exited (h : s.thread.all (·.point = .exited)) : inHand s.thread = [] := by
  rw [inHand.eq_def]
  split
  case h_1 ht =>
    rw [ht, Option.all_some] at h
    cases of_decide_eq_true h
  case h_2 => rfl

namespace Served

theorem length_ran (h : Served s) (hand : inHand s.thread = []) (empty : s.runQueue = []) :
    s.ran.length = s.queued := by
  have := congrArg List.length h.order
  simpa [hand, empty] using this

theorem keep (h : Served s) (thread : s'.thread = s.thread) (queue : s'.runQueue = s.runQueue)
    (ran : s'.ran = s.ran) (queued : s'.queued = s.queued) (told : s'.told = s.told)
    (ended : s'.ended = s.ended) (terminate : s'.terminate = s.terminate) : Served s' := by
  constructor
  case order => rw [ran, thread, queue, queued, h.order]
  case told =>
    rw [told, queued]
    exact h.told
  case check =>
    rw [thread, terminate, told, ran]
    exact h.check
  case ended =>
    rw [told, ended, ran]
    exact h.ended

theorem run (h : Served s) : Served { s with
    queued := s.queued + 1, runQueue := s.runQueue ++ [s.queued], calls := s.calls.set k c } := by
  constructor
  case order =>
    dsimp only
    rw [← List.append_assoc, h.order, List.range_succ]
  case told => exact fun p hp => Nat.le_succ_of_le (h.told p hp)
  case check => exact h.check
  case ended => exact h.ended

theorem terminate {loop : Nat} (h : Served s)
    (flushed : s.runQueue.isEmpty || s.thread.all (·.point ≠ .check)) :
    Served { s with terminate := true, told := s.tell loop, calls := s.calls.set k c } := by
  have bounded : ∀ p ∈ s.tell loop, p.2 ≤ s.queued := by
    intro p hp
    rcases mem_tell hp with hp | ⟨-, rfl⟩
    · exact h.told p hp
    · exact Nat.le_refl _
  constructor
  case order => exact h.order
  case told => exact bounded
  case check =>
    intro th ht hc _ p hp
    replace ht : s.thread = some th := ht
    have empty : s.runQueue = [] := by simpa [ht, hc] using flushed
    have hand : inHand s.thread = [] := by
      rw [ht]
      obtain ⟨loop, point⟩ := th
      cases hc
      rfl
    dsimp only
    rw [h.length_ran hand empty]
    exact bounded p hp
  case ended =>
    intro p hp he
    rcases mem_tell hp with hp | ⟨hn, rfl⟩
    · exact h.ended p hp he
    · exact absurd he hn

theorem idle (h : Served s) (before : inHand s.thread = []) (after : inHand s'.thread = [])
    (other : ∀ th, s'.thread = some th → th.point ≠ .check) (queue : s'.runQueue = s.runQueue)
    (ran : s'.ran = s.ran) (queued : s'.queued = s.queued) (told : s'.told = s.told)
    (ended : s'.ended = s.ended) : Served s' := by
  constructor
  case order => rw [ran, after, queue, queued, ← h.order, before]
  case told =>
    rw [told, queued]
    exact h.told
  case check => exact fun th ht hc => absurd hc (other th ht)
  case ended =>
    rw [told, ended, ran]
    exact h.ended

theorem resume {r : EventLoop × LoopCall} (h : Served s) (hp : s.flushesFirst (.resume k))
    (hk : s.calls[k]? = some c) (hr : s.resume k c = some r) :
    Served { r.1 with calls := s.calls.set k r.2 } := by
  cases c <;> simp only [EventLoop.resume, Option.ite_none_right_eq_some] at hr
  case spawn =>
    split at hr <;> cases hr
    case isTrue => exact h.keep rfl rfl rfl rfl rfl rfl rfl
    case isFalse hn =>
      have none : s.thread = none := by simpa using hn
      refine h.idle (by rw [none]; rfl) rfl ?_ rfl rfl rfl rfl rfl
      rintro th ⟨⟩
      exact nofun
  case terminate loop =>
    cases hr
    refine h.terminate ?_
    simpa only [flushesFirst, hk] using hp
  case join =>
    obtain ⟨exited, hr⟩ := hr
    cases hr
    exact h.idle (inHand_of_exited exited) rfl (fun _ => nofun) rfl rfl rfl rfl rfl
  case run =>
    cases hr
    exact h.run
  case wait =>
    obtain ⟨-, hr⟩ := hr
    cases hr
    exact h.keep rfl rfl rfl rfl rfl rfl rfl
  case returned => cases hr
  all_goals
    cases hr
    exact h.keep rfl rfl rfl rfl rfl rfl rfl

theorem move (h : Served s) {point : LoopPoint} (thread : s'.thread = some { th with point })
    (order : s'.ran ++ inHand s'.thread ++ s'.runQueue = s.ran ++ inHand s.thread ++ s.runQueue)
    (ran : s.ran.length ≤ s'.ran.length) (queued : s'.queued = s.queued) (told : s'.told = s.told)
    (ended : s'.ended = s.ended)
    (check : point = .check → s'.terminate = true → s.queued ≤ s'.ran.length) : Served s' := by
  constructor
  case order => rw [order, queued, h.order]
  case told =>
    rw [told, queued]
    exact h.told
  case check =>
    rw [thread, told]
    rintro _ ⟨⟩ hc hf p hp
    exact (h.told p hp).trans (check hc hf)
  case ended =>
    rw [told, ended]
    exact fun p hp he => (h.ended p hp he).trans ran

theorem exit (h : Served s) (ht : s.thread = some th) (hp : th.point = .check)
    (flag : s.terminate = true) : Served { s with
      ended := s.ended ++ [th.loop], thread := some { th with point := .exited } } := by
  have flushed := h.check th ht hp flag
  constructor
  case order =>
    rw [← h.order, ht]
    obtain ⟨loop, point⟩ := th
    cases hp
    rfl
  case told => exact h.told
  case check =>
    rintro _ ⟨⟩
    exact nofun
  case ended => exact fun p hp _ => flushed p hp

theorem loop {r : EventLoop × LoopPoint} (h : Served s) (ht : s.thread = some th)
    (hr : s.loop event th = some r) :
    Served { r.1 with thread := some { th with point := r.2 } } := by
  have hand {point : LoopPoint} (hp : th.point = point) :
      inHand s.thread = inHand (some { th with point }) := by rw [ht, ← hp]
  rw [EventLoop.loop] at hr
  split at hr
  case h_1 hp =>
    cases hr
    exact h.move rfl (by rw [hand hp]; rfl) le_rfl rfl rfl rfl nofun
  case h_2 hp =>
    split at hr <;> cases hr
    case isTrue flag => exact h.exit ht hp flag
    case isFalse => exact h.move rfl (by rw [hand hp]; rfl) le_rfl rfl rfl rfl nofun
  case h_3 hp =>
    split at hr <;> cases hr
    exact h.move rfl (by rw [hand hp]; rfl) le_rfl rfl rfl rfl nofun
  case h_4 hp =>
    cases hr
    exact h.move rfl (by rw [hand hp]; rfl) le_rfl rfl rfl rfl nofun
  case h_5 hp =>
    split at hr <;> cases hr
    case h_1 empty =>
      refine h.move rfl (by rw [hand hp]; rfl) le_rfl rfl rfl rfl fun _ _ => ?_
      exact (h.length_ran (hand hp) empty).ge
    case h_2 f queue hq =>
      refine h.move rfl ?_ le_rfl rfl rfl rfl nofun
      rw [hand hp, hq]
      simp [inHand]
  case h_6 f hp =>
    cases hr
    refine h.move rfl ?_ (by simp) rfl rfl rfl nofun
    rw [hand hp]
    simp [inHand]
  case h_7 => cases hr

theorem step (h : Served s) (hp : s.flushesFirst a) (hs : s.step a = some s') : Served s' := by
  cases a <;> simp only [EventLoop.step, Option.ite_none_right_eq_some, Option.bind_eq_some_iff,
    Option.map_eq_some_iff] at hs
  case call c =>
    obtain ⟨-, hs⟩ := hs
    cases hs
    exact h.keep rfl rfl rfl rfl rfl rfl rfl
  case resume k =>
    obtain ⟨c, hk, r, hr, rfl⟩ := hs
    exact h.resume hp hk hr
  case loop event =>
    obtain ⟨th, ht, r, hr, rfl⟩ := hs
    exact h.loop ht hr

theorem of_reachable (h : Reachable (fun s a => s.flushesFirst a) s) : Served s :=
  h.invariant (fun _ _ _ hp hs h => h.step hp (step_of_next hs))
    ⟨rfl, nofun, fun _ => nofun, nofun⟩

theorem ran_isPrefix (h : Served s) : s.ran <+: List.range s.queued :=
  ⟨inHand s.thread ++ s.runQueue, by rw [← List.append_assoc, h.order]⟩

theorem ran_of_lt (h : Served s) {f : Nat} (hf : f < s.ran.length) : f ∈ s.ran := by
  obtain ⟨rest, hr⟩ := h.ran_isPrefix
  have length := congrArg List.length hr
  rw [List.length_append, List.length_range] at length
  refine List.mem_of_getElem? (i := f) ?_
  rw [← List.getElem?_append_left hf, hr, List.getElem?_range (by omega)]

end Served

theorem functions_run_before_return (h : Reachable (fun s a => s.flushesFirst a) s) :
    s.ran <+: List.range s.queued ∧
      ∀ loop n, (loop, n) ∈ s.told → loop ∈ s.ended → ∀ f < n, f ∈ s.ran ∧
        ∀ k : Nat, s.calls[k]? = some (.wait f) → (s.step (.resume k)).isSome := by
  have served := Served.of_reachable h
  refine ⟨served.ran_isPrefix, fun loop n told ended f hf => ?_⟩
  have ran : f ∈ s.ran := served.ran_of_lt (hf.trans_le (served.ended _ told ended))
  refine ⟨ran, fun k hk => ?_⟩
  simp [EventLoop.step, hk, EventLoop.resume, ran]

section Samples

-- A thread starts the loop, and one queues a function and waits for it.
def startAndRun : List Action :=
  [.call .start, .resume 0, .resume 0, .resume 0, .loop false, .call .run, .call .stop, .resume 2,
    .resume 2]

theorem functions_run_before_return_sample : ∃ s : EventLoop,
    Reachable (fun s a => s.flushesFirst a) s ∧ s.calls[1]? = some (.wait 0) ∧ 0 ∈ s.ran ∧
      (s.step (.resume 1)).isSome := by
  have ⟨s, reached, told, ended, waits⟩ : ∃ s : EventLoop,
      Reachable (fun s a => s.flushesFirst a) s ∧ (0, 1) ∈ s.told ∧ 0 ∈ s.ended ∧
        s.calls[1]? = some (.wait 0) :=
    Reach.exists_of_guarded (fun _ _ h => h) (startAndRun ++
      [.loop false, .resume 1, .resume 1, .resume 2, .loop false, .loop false, .loop false,
        .loop false, .loop false, .loop false]) (by decide)
  have ⟨ran, goes⟩ := (functions_run_before_return reached).2 0 1 told ended 0 Nat.zero_lt_one
  exact ⟨s, reached, waits, ran, goes 1 waits⟩

-- The function is queued and `TerminateLoop` called before the loop tests the flag.
theorem function_left_in_queue : ∃ s : EventLoop, Reachable (fun _ _ => True) s ∧
    (0, 1) ∈ s.told ∧ 0 ∈ s.ended ∧ s.calls[1]? = some (.wait 0) ∧ 0 ∉ s.ran ∧
      s.next (.resume 1) = none ∧ s.next (.loop true) = none :=
  Reach.exists_of_exec (startAndRun ++ [.resume 1, .resume 1, .resume 2, .loop false]) (by decide)

end Samples

end Functions

end EventLoop

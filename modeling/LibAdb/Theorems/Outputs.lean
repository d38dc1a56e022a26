import LibAdb.Execution.Outputs

namespace ShellRun

variable {c c' : ShellRun}

def Staged (c : ShellRun) : Prop :=
  match c.point with
  | .service => c.capture = false ∧ c.cut = none
  | .created | .targeted =>
    c.reading = false ∧ c.promised = false ∧ c.finished = false ∧ c.cut = none
  | .running => c.finished = false ∧ c.cut = none
  | .aborting | .ending => c.cut = none ∧ ∃ n ≤ c.chunks.length, c.left = some n ∧
    (c.finished → c.reading = false ∧ n = c.chunks.length)
  | .cleared | .returned => ∃ n k, c.left = some n ∧ c.cut = some k ∧ n ≤ k ∧
    k ≤ c.chunks.length ∧ (c.finished → n = k)

-- What is captured is what came until the target was removed, and the reader of a session that has
-- finished passes nothing more on.
structure Ordered (c : ShellRun) : Prop where
  output   : c.output =
    if c.capture then (c.chunks.take (c.cut.getD c.chunks.length)).flatten else []
  promised : c.promised → c.reading = false
  staged   : c.Staged

def deliver (c : ShellRun) (data : Bytes) : ShellRun :=
  { c with
    output := if c.targeted && c.capture then c.output ++ data else c.output
    chunks := c.chunks ++ [data] }

namespace Ordered

theorem next (h : Ordered c) (hn : c.next a = some c') : Ordered c' := by
  obtain ⟨output, promised, staged⟩ := h
  simp only [Staged] at staged
  cases a <;> simp only [ShellRun.next, Option.ite_none_right_eq_some, Option.some.injEq] at hn
  case target =>
    obtain ⟨hp, rfl⟩ := hn
    rw [hp] at staged
    exact ⟨output, promised, staged⟩
  case start started =>
    split at hn
    case isTrue hp =>
      cases hn
      simp only [Bool.and_eq_true, decide_eq_true_eq, Bool.not_eq_true'] at hp
      rw [hp.left] at staged
      refine ⟨output, ?_, ?_⟩
      · intro h
        cases hp.right.symm.trans h
      · simpa [Staged, hp.left] using staged
    case isFalse =>
      simp only [Option.ite_none_left_eq_some, not_not] at hn
      obtain ⟨hp, hn⟩ := hn
      rw [hp] at staged
      have ⟨hr, hpr, hf, hc⟩ := staged
      split at hn <;> cases hn
      case isTrue => exact ⟨output, fun _ => by simp_all, hf, hc⟩
      case isFalse => exact ⟨output, promised, hc, _, le_rfl, rfl, fun _ => ⟨hr, rfl⟩⟩
  case close =>
    obtain ⟨hr, rfl⟩ := hn
    refine ⟨output, fun _ => rfl, ?_⟩
    simp only [Staged]
    split at staged <;> grind
  case finish =>
    obtain ⟨hp, rfl⟩ := hn
    simp only [Bool.and_eq_true, decide_eq_true_eq] at hp
    rw [hp.left] at staged
    exact ⟨output, promised, staged.right, _, le_rfl, rfl, fun _ => ⟨promised hp.right, rfl⟩⟩
  case abort =>
    obtain ⟨hp, rfl⟩ := hn
    rw [hp] at staged
    exact ⟨output, promised, staged.right, _, le_rfl, rfl, fun h => by cases staged.left.symm.trans h⟩
  case aborted =>
    obtain ⟨hp, rfl⟩ := hn
    rw [hp] at staged
    exact ⟨output, promised, staged⟩
  case clear =>
    obtain ⟨hp, rfl⟩ := hn
    rw [hp] at staged
    obtain ⟨hc, n, hn, hl, hf⟩ := staged
    refine ⟨?_, promised, n, _, hl, rfl, hn, le_rfl, fun h => (hf h).right⟩
    simpa [hc] using output
  case back =>
    obtain ⟨hp, rfl⟩ := hn
    rw [hp] at staged
    exact ⟨output, promised, staged⟩

theorem cut_of_targeted (h : Ordered c) (ht : c.targeted) : c.cut = none := by
  have staged := h.staged
  simp only [targeted, Staged] at ht staged
  split at staged <;> simp_all

theorem cut_of_not_targeted (h : Ordered c) (ht : ¬c.targeted) (hr : c.reading) :
    c.capture = false ∨ ∃ n ≤ c.chunks.length, c.cut = some n := by
  have staged := h.staged
  simp only [targeted, Staged] at ht staged
  split at staged <;> grind

theorem deliver (h : Ordered c) (hr : c.reading) (data : Bytes) : Ordered (c.deliver data) := by
  refine ⟨?_, h.promised, ?_⟩
  · by_cases ht : c.targeted
    case pos =>
      simp only [ShellRun.deliver, h.output, h.cut_of_targeted ht, ht, Bool.true_and, Option.getD_none,
        List.take_length, List.flatten_append, List.flatten_singleton]
      split <;> rfl
    case neg =>
      rcases h.cut_of_not_targeted ht hr with hc | ⟨n, hn, hc⟩
      · simp [ShellRun.deliver, h.output, hc]
      · simp [ShellRun.deliver, h.output, hc, ht, List.take_append_of_le_length hn]
  · have staged := h.staged
    simp only [Staged, ShellRun.deliver] at staged ⊢
    split at staged <;> grind

end Ordered

def Step.targets (before : Bool) : Step → Bool
  | .target => true
  | .clear  => false
  | _       => before

theorem next_eq (h : c.next a = some c') : c'.id = c.id ∧ c'.capture = c.capture ∧
    c'.targeted = a.targets c.targeted := by
  cases a <;> simp only [next, Step.targets] at h ⊢ <;> grind [targeted]

theorem next_returned (hp : c.point = .returned) (h : c.next a = some c') :
    c'.point = .returned ∧ c'.output = c.output := by
  cases a <;> simp only [next, hp] at h <;> grind

end ShellRun

namespace Outputs

variable {s s' : Outputs} {c c' : ShellRun}

def targetOf (i : Nat) (c : ShellRun) : Option OutputTarget :=
  if c.targeted then some (target c i) else none

structure Owned (s : Outputs) : Prop where
  nextId : s.nextId = UInt32.ofNat (s.created + 1)
  fresh  : ∀ i, s.created ≤ i → s.call i = none ∧
    (i < 0x100000000 → s.outputs (UInt32.ofNat (i + 1)) = none)
  each   : ∀ i c, s.call i = some c →
    c.id = UInt32.ofNat (i + 1) ∧ s.outputs c.id = targetOf i c ∧ c.Ordered

theorem created_le (h : s.next a = some s') : s.created ≤ s'.created := by
  cases a <;> simp only [next, Option.bind_eq_some_iff] at h
  case createSession =>
    cases h
    exact Nat.le_succ _
  case step i a =>
    obtain ⟨c, -, h⟩ := h
    obtain ⟨c', -, rfl⟩ := Option.map_eq_some_iff.mp h
    cases a <;> exact le_rfl
  case deliver =>
    obtain ⟨c, -, h⟩ := h
    obtain ⟨-, ⟨⟩⟩ := Option.ite_none_right_eq_some.mp h
    simp only [deliver, onShellData]
    split <;> exact le_rfl

theorem id_inj (hi : i < 0x100000000) (hj : j < 0x100000000)
    (h : UInt32.ofNat (i + 1) = UInt32.ofNat (j + 1)) : i = j := by
  have := congrArg UInt32.toNat h
  simp only [UInt32.toNat_ofNat'] at this
  omega

namespace Owned

theorem lt (h : Owned s) (hc : s.call i = some c) : i < s.created := by
  apply Nat.lt_of_not_le
  intro hi
  cases (h.fresh i hi).left.symm.trans hc

theorem update (h : Owned s) (hn : s.created ≤ 0x100000000) (hc : s.call i = some c) (hid : c'.id = c.id)
    (ho : c'.Ordered) : Owned { s with
      call := Function.update s.call i (some c')
      outputs := Function.update s.outputs c.id (targetOf i c') } := by
  have hi := h.lt hc
  have other : ∀ j < 0x100000000, j ≠ i → UInt32.ofNat (j + 1) ≠ c.id := by
    intro j hj hne he
    exact hne (id_inj hj (by omega) (he.trans (h.each i c hc).left))
  refine ⟨h.nextId, fun j hj => ?_, fun j d hd => ?_⟩
  · have hne : j ≠ i := by
      simp only at hj
      omega
    refine ⟨?_, fun hlt => ?_⟩
    · simp only [Function.update_of_ne hne, (h.fresh j hj).left]
    · simp only [Function.update_of_ne (other j hlt hne), (h.fresh j hj).right hlt]
  · by_cases he : j = i
    case pos =>
      simp only [he, Function.update_self, Option.some.injEq] at hd ⊢
      rw [← hd, hid, Function.update_self]
      exact ⟨(h.each i c hc).left, rfl, ho⟩
    case neg =>
      simp only [Function.update_of_ne he] at hd ⊢
      have ⟨id, target, ordered⟩ := h.each j d hd
      have hne : d.id ≠ c.id := id ▸ other j (by have := h.lt hd; omega) he
      rw [Function.update_of_ne hne]
      exact ⟨id, target, ordered⟩

theorem step (h : Owned s) (hn : s.created ≤ 0x100000000) (hc : s.call i = some c)
    (hs : c.next a = some c') : Owned (s.step i c c' a) := by
  have ⟨_, target, ordered⟩ := h.each i c hc
  have ⟨id, capture, targeted⟩ := ShellRun.next_eq hs
  have next := h.update hn hc id (ordered.next hs)
  have now : targetOf i c' =
      if a.targets c.targeted then some (Outputs.target c i) else none := by
    rw [targetOf, targeted, Outputs.target, capture]
    rfl
  cases a
  case target | clear =>
    rw [now] at next
    exact next
  all_goals
    rw [now.trans target.symm, Function.update_eq_self] at next
    exact next

theorem createSession (h : Owned s) (hn : s.created < 0x100000000) :
    Owned (s.createSession shell capture) := by
  refine ⟨?_, fun j hj => ?_, fun j d hd => ?_⟩
  · rw [Outputs.createSession, h.nextId]
    exact (UInt32.ofNat_add ..).symm
  · have hne : j ≠ s.created := by
      simp only [Outputs.createSession] at hj
      omega
    simp only [Outputs.createSession, Function.update_of_ne hne]
    exact h.fresh j (Nat.le_of_succ_le hj)
  · by_cases he : j = s.created
    case pos =>
      simp only [Outputs.createSession, he, Function.update_self, Option.some.injEq] at hd ⊢
      cases hd
      refine ⟨h.nextId, ?_, ?_, nofun, ?_⟩
      · rw [h.nextId, (h.fresh _ le_rfl).right hn]
        cases shell <;> rfl
      · simp
      · cases shell <;> simp [ShellRun.Staged]
    case neg =>
      simp only [Outputs.createSession, Function.update_of_ne he] at hd ⊢
      exact h.each j d hd

theorem deliver_eq (h : Owned s) (hc : s.call i = some c) : s.deliver i c data =
    { s with call := Function.update s.call i (some (c.deliver data)) } := by
  simp only [Outputs.deliver, onShellData, (h.each i c hc).right.left, targetOf, Outputs.target,
    ShellRun.deliver]
  by_cases ht : c.targeted <;> by_cases hp : c.capture <;> simp [ht, hp, hc]

theorem deliver (h : Owned s) (hn : s.created ≤ 0x100000000) (hc : s.call i = some c) (hr : c.reading) :
    Owned (s.deliver i c data) := by
  have ⟨_, target, ordered⟩ := h.each i c hc
  have next := h.update hn hc (rfl : (c.deliver data).id = c.id) (ordered.deliver hr data)
  have same : targetOf i (c.deliver data) = s.outputs c.id := target.symm
  rw [same, Function.update_eq_self, ← h.deliver_eq hc] at next
  exact next

theorem next (h : Owned s) (hn : s'.created < 0x100000000) (hs : s.next a = some s') : Owned s' := by
  have lt := Nat.lt_of_le_of_lt (created_le hs) hn
  cases a <;> simp only [Outputs.next, Option.bind_eq_some_iff] at hs
  case createSession =>
    cases hs
    exact h.createSession lt
  case step =>
    obtain ⟨c, hc, hs⟩ := hs
    obtain ⟨c', ht, rfl⟩ := Option.map_eq_some_iff.mp hs
    exact h.step (Nat.le_of_lt lt) hc ht
  case deliver =>
    obtain ⟨c, hc, hs⟩ := hs
    obtain ⟨hr, ⟨⟩⟩ := Option.ite_none_right_eq_some.mp hs
    exact h.deliver (Nat.le_of_lt lt) hc hr

theorem returned (h : Owned s) (hs : s.next a = some s') (hc : s.call i = some c)
    (hp : c.point = .returned) :
    ∃ c', s'.call i = some c' ∧ c'.point = .returned ∧ c'.output = c.output := by
  cases a <;> simp only [Outputs.next, Option.bind_eq_some_iff] at hs
  case createSession =>
    cases hs
    refine ⟨c, ?_, hp, rfl⟩
    simp only [Outputs.createSession, Function.update_of_ne (Nat.ne_of_lt (h.lt hc)), hc]
  case step j a =>
    obtain ⟨d, hd, hs⟩ := hs
    obtain ⟨d', ht, rfl⟩ := Option.map_eq_some_iff.mp hs
    have call : (s.step j d d' a).call = Function.update s.call j (some d') := by cases a <;> rfl
    rw [call]
    by_cases he : i = j
    case pos =>
      cases he
      cases hd.symm.trans hc
      exact ⟨d', Function.update_self .., ShellRun.next_returned hp ht⟩
    case neg => exact ⟨c, by rw [Function.update_of_ne he, hc], hp, rfl⟩
  case deliver j data =>
    obtain ⟨d, hd, hs⟩ := hs
    obtain ⟨-, ⟨⟩⟩ := Option.ite_none_right_eq_some.mp hs
    rw [h.deliver_eq hd]
    by_cases he : i = j
    case pos =>
      cases he
      cases hd.symm.trans hc
      refine ⟨_, Function.update_self .., hp, ?_⟩
      simp [ShellRun.deliver, ShellRun.targeted, hp]
    case neg => exact ⟨c, by simp only [Function.update_of_ne he, hc], hp, rfl⟩

end Owned

theorem Runs.owned (h : Runs s s') (hs : s.created < 0x100000000 → Owned s) (hn : s'.created < 0x100000000) :
    Owned s' :=
  Reach.invariant (I := fun s => s.created < 0x100000000 → Owned s) (fun _ _ _ _ hs ho hn =>
    (ho (Nat.lt_of_le_of_lt (created_le hs) hn)).next hn hs) h hs hn

theorem owned_init : Owned {} :=
  ⟨rfl, fun _ _ => ⟨rfl, fun _ => rfl⟩, nofun⟩

theorem output_eq_chunks (h : Runs {} s) (hn : s.created < 0x100000000) (hc : s.call i = some c)
    (hp : c.point = .returned) :
    (∃ n k, c.left = some n ∧ c.cut = some k ∧ n ≤ k ∧ (c.finished → n = k) ∧
      c.output = if c.capture then (c.chunks.take k).flatten else []) ∧
    ∀ s', Runs s s' → s'.created < 0x100000000 → ∃ c', s'.call i = some c' ∧ c'.output = c.output := by
  have owned := h.owned (fun _ => owned_init) hn
  constructor
  case left =>
    have ordered := (owned.each i c hc).right.right
    have staged := ordered.staged
    simp only [ShellRun.Staged, hp] at staged
    obtain ⟨n, k, hl, hk, hle, -, hf⟩ := staged
    refine ⟨n, k, hl, hk, hle, hf, ?_⟩
    rw [ordered.output, hk]
    rfl
  case right =>
    intro s' h' hn'
    have ⟨c', hc', _, he⟩ := Reach.invariant_under (I := fun s => s.created < 0x100000000 → Owned s)
      (J := fun s => s.created < 0x100000000 →
        ∃ c', s.call i = some c' ∧ c'.point = .returned ∧ c'.output = c.output)
      (fun _ _ _ _ hs ho hn => (ho (Nat.lt_of_le_of_lt (created_le hs) hn)).next hn hs)
      (fun _ _ _ ho _ hs hj hn => by
        have lt := Nat.lt_of_le_of_lt (created_le hs) hn
        have ⟨c₁, hc₁, hp₁, he₁⟩ := hj lt
        have ⟨c₂, hc₂, hp₂, he₂⟩ := (ho lt).returned hs hc₁ hp₁
        exact ⟨c₂, hc₂, hp₂, he₂.trans he₁⟩)
      h' (fun _ => owned) (fun _ => ⟨c, hc, hp, rfl⟩) hn'
    exact ⟨c', hc', he⟩

-- Two commands side by side, of which the first one is aborted.
theorem output_eq_chunks_two : ∃ s c, Runs {} s ∧ s.call 0 = some c ∧ c.point = .returned ∧
    c.output = [1, 2, 4] ∧
    ∀ s', Runs s s' → s'.created < 0x100000000 → ∃ c', s'.call 0 = some c' ∧ c'.output = c.output := by
  have ⟨s, hs, hn, ⟨c, hc, hp, ho⟩⟩ : ∃ s, Runs {} s ∧ s.created < 0x100000000 ∧
      ∃ c ∈ s.call 0, c.point = .returned ∧ c.output = [1, 2, 4] :=
    Reach.exists_of_exec [
      .createSession true true, .step 0 .target, .createSession true true, .step 1 .target,
      .step 0 (.start true), .step 1 (.start true), .deliver 0 [1, 2], .deliver 1 [3],
      .step 0 .abort, .deliver 0 [4], .step 0 .aborted, .step 0 .clear, .deliver 0 [5],
      .step 0 .back, .deliver 1 [6]] (by decide +kernel)
  exact ⟨s, c, hs, hc, hp, ho, (output_eq_chunks hs hn hc hp).right⟩

-- What comes while the session is being aborted is captured as well, and nothing is captured unless
-- the options say so.
theorem output_not_until_abort :
    (∃ s, Runs {} s ∧ ∃ c ∈ s.call 0, c.point = .returned ∧ c.left = some 1 ∧
      c.chunks = [[1], [2]] ∧ c.output = [1, 2]) ∧
    ∃ s, Runs {} s ∧ ∃ c ∈ s.call 0, c.point = .returned ∧ c.finished ∧
      c.chunks = [[1]] ∧ c.output = [] := by
  constructor
  case left =>
    exact Reach.exists_of_exec [
      .createSession true true, .step 0 .target, .step 0 (.start true), .deliver 0 [1],
      .step 0 .abort, .deliver 0 [2], .step 0 .aborted, .step 0 .clear, .step 0 .back]
      (by decide +kernel)
  case right =>
    exact Reach.exists_of_exec [
      .createSession true false, .step 0 .target, .step 0 (.start true), .deliver 0 [1],
      .step 0 .close, .step 0 .finish, .step 0 .clear, .step 0 .back] (by decide +kernel)

end Outputs

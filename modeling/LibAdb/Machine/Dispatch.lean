import LibAdb.Library.Threads
import LibAdb.Machine.Events

namespace BusStep

def isLoop : BusStep → Bool
  | .wait | .finish => true
  | _ => false

def isRound : BusStep → Bool
  | .wait | .handle _ _ | .handling _ _ | .finish => true
  | _ => false

end BusStep

namespace EventBus

-- A dispatcher that has not left ends its program with the round or with the wait for the next.
inductive Loops : List BusStep → Prop
  | left : Loops []
  | inside : s.isLoop → (∀ t ∈ first, t.isLoop = false) → Loops (first ++ [s])

inductive Switches (b : EventBus) : BusStep → EventBus → Prop
  | same :
    (s = .start → b.running) → b'.running = b.running → b'.dispatcher = b.dispatcher →
    b'.dispatchers = b.dispatchers → Switches b s b'
  | start :
    b.running = false → b'.running → b'.dispatcher = some b.dispatchers.length →
    b'.dispatchers = b.dispatchers ++ [[.wait]] → Switches b .start b'
  | stop :
    b'.running = false → b'.dispatchers = b.dispatchers → Switches b .stop b'

structure Live (b : EventBus) : Prop where
  calls : ∀ program ∈ b.calls, ∀ t ∈ program, t.isRound = false
  loops : ∀ program ∈ b.dispatchers, Loops program
  held  : b.running → ∃ d, b.dispatcher = some d ∧
    ∃ program, b.dispatchers[d]? = some program ∧ program ≠ []

variable {b b' : EventBus} {a : Action} {s : BusStep} {new rest program : List BusStep}
  {call : BusCall} {d : Nat}

theorem isLoop_of_isRound (h : s.isRound = false) : s.isLoop = false := by
  cases s <;> first | rfl | cases h

theorem isRound_steps (call : BusCall) : ∀ t ∈ steps call, t.isRound = false := by
  cases call
  case subscribe handler => cases handler <;> simp [steps, BusStep.isRound]
  all_goals simp [steps, BusStep.isRound]

theorem mem_take {queue : List Posted} (h : s ∈ (b.take p queue).2) :
    (∃ x, s = .handle p x) ∨ (∃ n, s = .publish (overflow n)) ∨ s = .finish := by
  unfold take at h
  simp only [List.mem_append, List.mem_map, List.mem_singleton] at h
  rcases h with (⟨x, _, rfl⟩ | h) | rfl
  case inl.inl => exact .inl ⟨x, rfl⟩
  case inl.inr =>
    rw [List.mem_ite_nil_right] at h
    exact .inr (.inl ⟨_, List.mem_singleton.mp h.2⟩)
  case inr => exact .inr (.inr rfl)

theorem Steps.calls (h : Steps b s b' new) : b'.calls = b.calls := by
  cases h
  case enqueue => rw [enqueue_eq]
  case start hr => simp [EventBus.start, hr]
  case unsubscribe =>
    unfold EventBus.unsubscribe
    split <;> rfl
  all_goals rfl

theorem Steps.switches (h : Steps b s b' new) : Switches b s b' := by
  cases h
  case enqueue =>
    rw [enqueue_eq]
    exact .same nofun rfl rfl rfl
  case start hr =>
    have started : b.start = { b with
        running := true, dispatcher := some b.dispatchers.length
        dispatchers := b.dispatchers ++ [[.wait]] } :=
      if_neg (Bool.eq_false_iff.mp hr)
    rw [started]
    exact .start hr rfl rfl rfl
  case started hr => exact .same (fun _ => hr) rfl rfl rfl
  case stop => exact .stop rfl rfl
  case unsubscribe =>
    unfold EventBus.unsubscribe
    split <;> exact .same nofun rfl rfl rfl
  all_goals exact .same nofun rfl rfl rfl

theorem Steps.dispatchers_le (h : Steps b s b' new) :
    b.dispatchers.length ≤ b'.dispatchers.length := by
  cases h.switches
  case same hd => rw [hd]
  case start hd => simp [hd]
  case stop hd => rw [hd]

theorem Steps.isRound (h : Steps b s b' new) (hs : s.isRound = false) :
    ∀ t ∈ new, t.isRound = false := by
  cases h
  case wanted => simp [BusStep.isRound]
  case stop => simp [BusStep.isRound]
  case subscribe =>
    split <;> simp [BusStep.isRound]
  case replacePrimary handler =>
    split <;> cases handler <;> simp [BusStep.isRound]
  case shutdown => simp [BusStep.isRound]
  case take => cases hs
  case handle => cases hs
  case throws => cases hs
  case finish => cases hs
  all_goals simp

theorem Steps.isLoop (h : Steps b s b' new) (hs : s.isLoop = false) :
    ∀ t ∈ new, t.isLoop = false := by
  cases hr : s.isRound
  case false => exact fun t ht => isLoop_of_isRound (h.isRound hr t ht)
  case true =>
    cases h
    case take => cases hs
    case leave => cases hs
    case handle => simp [BusStep.isLoop]
    case returns => simp
    case throws => simp [BusStep.isLoop]
    case finish => cases hs
    all_goals cases hr

theorem Loops.wait : Loops [.wait] := by
  have loops : Loops ([] ++ [.wait]) := .inside rfl (by simp)
  exact loops

theorem Loops.prepend (h : Loops program) (hn : program ≠ []) (ht : ∀ t ∈ new, t.isLoop = false) :
    Loops (new ++ program) := by
  cases h
  case left => exact absurd rfl hn
  case inside s first hs hf =>
    rw [← List.append_assoc]
    refine .inside hs fun t h => ?_
    exact (List.mem_append.mp h).elim (ht t) (hf t)

theorem Loops.cases_cons (h : Loops (s :: rest)) :
    s.isLoop ∧ rest = [] ∨ s.isLoop = false ∧ rest ≠ [] ∧ Loops rest := by
  generalize hp : s :: rest = program at h
  cases h
  case left => cases hp
  case inside first t ht hf =>
    cases first
    case nil =>
      cases hp
      exact .inl ⟨ht, rfl⟩
    case cons =>
      cases hp
      refine .inr ⟨hf s List.mem_cons_self, by simp, .inside ht fun t h => ?_⟩
      exact hf t (List.mem_cons_of_mem _ h)

theorem Loops.step (h : Loops (s :: rest)) (hs : Steps b s b' new) :
    Loops (new ++ rest) ∧ (new ++ rest = [] → b'.running = false) := by
  rcases h.cases_cons with ⟨hl, rfl⟩ | ⟨hl, hn, hr⟩
  case inl =>
    rw [List.append_nil]
    cases hs
    case take p queue hq =>
      constructor
      · refine .inside rfl fun t ht => ?_
        rcases List.mem_append.mp ht with ht | ht
        case inl =>
          obtain ⟨_, _, rfl⟩ := List.mem_map.mp ht
          rfl
        case inr =>
          obtain ⟨_, rfl⟩ : _ ∧ t = .publish _ := by simpa using ht
          rfl
      · simp [take]
    case leave hr => exact ⟨.left, fun _ => hr⟩
    case finish => exact ⟨.wait, by simp⟩
    all_goals cases hl
  case inr =>
    refine ⟨hr.prepend hn (hs.isLoop hl), fun he => ?_⟩
    exact absurd (List.append_eq_nil_iff.mp he).2 hn

namespace Live

theorem steps (h : Live b) (hs : Steps b s b' new) : Live b' where
  calls := hs.calls ▸ h.calls
  loops := by
    cases hs.switches
    case same hd => exact hd ▸ h.loops
    case start hd =>
      rw [hd]
      intro program hp
      rcases List.mem_append.mp hp with hp | hp
      case inl => exact h.loops program hp
      case inr =>
        rw [List.mem_singleton.mp hp]
        exact .wait
    case stop hd => exact hd ▸ h.loops
  held hr := by
    cases hs.switches
    case same _ hr' hd hds =>
      rw [hd, hds]
      exact h.held (hr' ▸ hr)
    case start hd hds =>
      rw [hd, hds]
      exact ⟨_, rfl, [.wait], List.getElem?_concat_length, by simp⟩
    case stop hr' _ => exact absurd hr (Bool.eq_false_iff.mp hr')

theorem set_call (h : Live b) (hp : ∀ t ∈ program, t.isRound = false) :
    Live { b with calls := b.calls.set k program } where
  calls := List.forall_mem_set h.calls hp
  loops := h.loops
  held := h.held

theorem set_dispatcher (h : Live b) (hp : Loops program) (hr : program = [] → b.running = false)
    (hd : d < b.dispatchers.length) :
    Live { b with dispatchers := b.dispatchers.set d program } where
  calls := h.calls
  loops := List.forall_mem_set h.loops hp
  held running := by
    obtain ⟨e, he, old, hold, hne⟩ := h.held running
    refine ⟨e, he, ?_⟩
    rw [List.getElem?_set]
    split
    case isTrue heq =>
      subst heq
      refine ⟨program, rfl, fun hnil => ?_⟩
      exact absurd running (Bool.eq_false_iff.mp (hr hnil))
    case isFalse => exact ⟨old, hold, hne⟩

theorem next (h : Live b) (hn : b.next a = some b') : Live b' := by
  cases next_acts hn
  case call c =>
    refine ⟨fun program hp => ?_, h.loops, h.held⟩
    rcases List.mem_append.mp hp with hp | hp
    case inl => exact h.calls program hp
    case inr =>
      rw [List.mem_singleton.mp hp]
      exact isRound_steps c
  case nest d program c hd hi =>
    have hne : program ≠ [] := by
      rintro rfl
      cases hi
    refine h.set_dispatcher ?_ ?_ (List.getElem?_eq_some_iff.mp hd).choose
    · refine (h.loops program (List.mem_of_getElem? hd)).prepend hne fun t ht => ?_
      exact isLoop_of_isRound (isRound_steps c t ht)
    · exact fun he => absurd (List.append_eq_nil_iff.mp he).2 hne
  case resume k s rest b₁ new hk hs =>
    have old := h.calls _ (List.mem_of_getElem? hk)
    refine (h.steps hs).set_call fun t ht => ?_
    rcases List.mem_append.mp ht with ht | ht
    case inl => exact hs.isRound (old s List.mem_cons_self) t ht
    case inr => exact old t (List.mem_cons_of_mem _ ht)
  case dispatch d s rest b₁ new outcome hd hs =>
    have ⟨loops, left⟩ := (h.loops _ (List.mem_of_getElem? hd)).step hs
    have hl := (List.getElem?_eq_some_iff.mp hd).choose
    exact (h.steps hs).set_dispatcher loops left (hl.trans_le hs.dispatchers_le)

theorem initial (limit : Nat) : Live { queueLimit := limit } where
  calls := by simp
  loops := by simp
  held := nofun

end Live

end EventBus

import LibAdb.Execution.Fdevent

namespace FdeventContext

variable {s s' s₁ s₂ s₃ : FdeventContext} {fde fd a n now : Nat}

-- No new fdevent gets the address of one whose event still waits in the batch.
def avoidsBatch (s : FdeventContext) : Action → Bool
  | .create fde _ => s.batch.all (·.fde != fde)
  | .deferredClose _ new _ => s.batch.all (·.fde != new)
  | _ => true

def idAt (s : FdeventContext) (fde : Nat) : Option Nat :=
  (s.nodes fde).map (·.id)

theorem idAt_put : (s.put fde node).idAt a = if a = fde then node.map (·.id) else s.idAt a := by
  simp only [idAt, put]
  split <;> rfl

def Keeps (s s' : FdeventContext) (fde : Nat) : Prop :=
  s'.idAt fde = s.idAt fde ∨ s'.idAt fde = none

namespace Keeps

theorem trans (h₁ : Keeps s₁ s₂ fde) (h₂ : Keeps s₂ s₃ fde) : Keeps s₁ s₃ fde :=
  h₂.elim (fun same => by rw [Keeps, same]; exact h₁) .inr

theorem eq_some (h : Keeps s s' fde) (hi : s'.idAt fde = some n) : s.idAt fde = some n := by
  rcases h with same | gone
  · exact same ▸ hi
  · rw [gone] at hi
    cases hi

theorem put (node : Fdevent) (h : s.idAt fde = some node.id) :
    (s.put fde (some node)).idAt = s.idAt := by
  funext a
  rw [idAt_put]
  split
  case isTrue ha => rw [ha, h, Option.map_some]
  case isFalse => rfl

theorem create (h : s.create fde fd = some s') (hn : a ≠ fde) : Keeps s s' a := by
  simp only [FdeventContext.create, Option.ite_none_right_eq_some] at h
  cases h.2
  refine .inl ?_
  show (s.put fde _).idAt a = _
  rw [idAt_put, if_neg hn]

theorem destroy (h : s.destroy fde = some (fd, s')) : Keeps s s' a := by
  obtain ⟨node, -, hs⟩ := Option.map_eq_some_iff.mp h
  cases hs
  show (s.put fde none).idAt a = _ ∨ (s.put fde none).idAt a = none
  rw [idAt_put]
  split
  · exact .inr rfl
  · exact .inl rfl

theorem modify {f : Fdevent → Fdevent} (h : s.modify fde f = some s')
    (hf : ∀ node, (f node).id = node.id) : Keeps s s' a := by
  obtain ⟨node, hn, rfl⟩ := Option.map_eq_some_iff.mp h
  refine .inl (congrFun (put _ ?_) a)
  rw [idAt, hn, Option.map_some, hf]

theorem deferredClose {new : Nat} (h : s.deferredClose fde new now = some s') (hn : a ≠ new) :
    Keeps s s' a := by
  obtain ⟨⟨fd, s₁⟩, h₁, h⟩ := Option.bind_eq_some_iff.mp h
  obtain ⟨s₂, h₂, h⟩ := Option.bind_eq_some_iff.mp h
  obtain ⟨s₃, h₃, h⟩ := Option.bind_eq_some_iff.mp h
  exact (((destroy h₁).trans (create h₂ hn)).trans (modify h₃ fun _ => rfl)).trans
    (modify h fun _ => rfl)

end Keeps

theorem modify_frame (h : s.modify fde f = some s') : s'.batch = s.batch ∧ s'.log = s.log := by
  obtain ⟨node, -, rfl⟩ := Option.map_eq_some_iff.mp h
  exact ⟨rfl, rfl⟩

theorem create_frame (h : s.create fde fd = some s') : s'.batch = s.batch ∧ s'.log = s.log := by
  simp only [create, Option.ite_none_right_eq_some] at h
  cases h.2
  exact ⟨rfl, rfl⟩

theorem destroy_frame (h : s.destroy fde = some (fd, s')) :
    s'.batch = s.batch ∧ s'.log = s.log := by
  obtain ⟨node, -, hs⟩ := Option.map_eq_some_iff.mp h
  cases hs
  exact ⟨rfl, rfl⟩

theorem deferredClose_frame {new : Nat} (h : s.deferredClose fde new now = some s') :
    s'.batch = s.batch ∧ s'.log = s.log := by
  obtain ⟨⟨fd, s₁⟩, h₁, h⟩ := Option.bind_eq_some_iff.mp h
  obtain ⟨s₂, h₂, h⟩ := Option.bind_eq_some_iff.mp h
  obtain ⟨s₃, h₃, h⟩ := Option.bind_eq_some_iff.mp h
  have ⟨b₁, l₁⟩ := destroy_frame h₁
  have ⟨b₂, l₂⟩ := create_frame h₂
  have ⟨b₃, l₃⟩ := modify_frame h₃
  have ⟨b₄, l₄⟩ := modify_frame h
  exact ⟨b₄.trans (b₃.trans (b₂.trans b₁)), l₄.trans (l₃.trans (l₂.trans l₁))⟩

-- The events of the batch belong to the fdevents at their addresses, as far as these are still there.
structure Sound (s : FdeventContext) : Prop where
  batch : ∀ e ∈ s.batch, ∀ n, s.idAt e.fde = some n → n = e.id
  log   : ∀ d ∈ s.log, d.receiver = d.event.id

namespace Sound

theorem keeps (h : Sound s) (frame : s'.batch = s.batch ∧ s'.log = s.log)
    (kept : ∀ e ∈ s.batch, Keeps s s' e.fde) : Sound s' where
  batch e he n hn := by
    rw [frame.1] at he
    exact h.batch e he n ((kept e he).eq_some hn)
  log := frame.2 ▸ h.log

-- A poll puts events into the batch together with the fdevents they are for.
def Reports (s s' : FdeventContext) (events : List FdeventEvent) : Prop :=
  s'.idAt = s.idAt ∧ s'.log = s.log ∧ ∀ e ∈ events, s.idAt e.fde = some e.id

theorem Reports.cons (hn : s.nodes fde = some node)
    (h : Reports (s.put fde (some { node with lastActive := now })) s' more) :
    Reports s s' ({ fde, events, id := node.id } :: more) := by
  have here : s.idAt fde = some node.id := by rw [idAt, hn, Option.map_some]
  obtain ⟨ids, log, reports⟩ := h
  rw [Keeps.put { node with lastActive := now } here] at ids reports
  exact ⟨ids, log, List.forall_mem_cons.mpr ⟨here, reports⟩⟩

theorem report {reported : List (Nat × EpollEvents)} (h : s.report now reported = some (s', events)) :
    Reports s s' events := by
  induction reported generalizing s events
  case nil =>
    cases h
    exact ⟨rfl, rfl, nofun⟩
  case cons r rest hi =>
    obtain ⟨fde, e⟩ := r
    obtain ⟨node, hn, h⟩ := Option.bind_eq_some_iff.mp h
    simp only at h
    split at h
    case isFalse => cases h
    case isTrue =>
      obtain ⟨⟨s₁, more⟩, hr, h⟩ := Option.bind_eq_some_iff.mp h
      cases h
      exact .cons hn (hi hr)

theorem expire (fdes : List Nat) (h : s.expire now reported fdes = (s', events)) :
    Reports s s' events := by
  induction fdes generalizing s events
  case nil =>
    cases h
    exact ⟨rfl, rfl, nofun⟩
  case cons fde rest hi =>
    rw [FdeventContext.expire] at h
    split at h
    case h_1 => exact hi h
    case h_2 node hn =>
      split at h
      case isFalse => exact hi h
      case isTrue =>
        cases h
        exact .cons hn (hi rfl)

theorem poll (h : Sound s) (hp : s.poll now reported = some s') : Sound s' := by
  obtain ⟨⟨s₁, ready⟩, h₁, hp⟩ := Option.bind_eq_some_iff.mp hp
  generalize h₂ : s₁.expire now (ready.map (·.fde)) (s₁.fds.map (·.2)) = r at hp
  obtain ⟨s₂, expired⟩ := r
  simp only [h₂] at hp
  cases hp
  obtain ⟨ids₁, log₁, reports₁⟩ := report h₁
  obtain ⟨ids₂, log₂, reports₂⟩ := expire _ h₂
  constructor
  case batch =>
    intro e he n hn
    have hn : s₂.idAt e.fde = some n := hn
    rw [ids₂] at hn
    rcases List.mem_append.mp he with he | he
    · rw [ids₁, reports₁ e he] at hn
      exact (Option.some.inj hn).symm
    · rw [reports₂ e he] at hn
      exact (Option.some.inj hn).symm
  case log =>
    show ∀ d ∈ s₂.log, _
    rw [log₂, log₁]
    exact h.log

theorem handleEvent (h : Sound s) (hs : s.handleEvent = some s') : Sound s' := by
  rw [FdeventContext.handleEvent] at hs
  split at hs
  case h_1 => cases hs
  case h_2 event batch hb =>
    have tail : ∀ e ∈ batch, ∀ n, s.idAt e.fde = some n → n = e.id :=
      fun e he => h.batch e (hb ▸ .tail _ he)
    dsimp only at hs
    split at hs
    case isFalse =>
      cases hs
      exact ⟨tail, h.log⟩
    case isTrue =>
      obtain ⟨node, hn, rfl⟩ := Option.map_eq_some_iff.mp hs
      have here : s.idAt event.fde = some node.id := by
        rw [idAt]
        exact congrArg (Option.map (·.id)) hn
      refine ⟨tail, fun d hd => ?_⟩
      rcases List.mem_append.mp hd with hd | hd
      · exact h.log d hd
      · rw [List.mem_singleton.mp hd]
        exact h.batch event (hb ▸ .head _) _ here

theorem step {a : Action} (h : Sound s) (hp : s.avoidsBatch a) (hs : s.step a = some s') :
    Sound s' := by
  cases a
  case create fde fd =>
    have other := List.all_eq_true.mp hp
    exact h.keeps (create_frame hs) fun e he => .create hs (by simpa using other e he)
  case destroy fde =>
    obtain ⟨⟨fd, s₁⟩, hd, rfl⟩ := Option.map_eq_some_iff.mp hs
    exact h.keeps (destroy_frame hd) fun e _ => .destroy hd
  case set => exact h.keeps (modify_frame hs) fun e _ => .modify hs fun _ => rfl
  case setTimeout => exact h.keeps (modify_frame hs) fun e _ => .modify hs fun _ => rfl
  case deferredClose fde new now =>
    have other := List.all_eq_true.mp hp
    exact h.keeps (deferredClose_frame hs) fun e he => .deferredClose hs (by simpa using other e he)
  case poll =>
    simp only [FdeventContext.step, Option.ite_none_right_eq_some] at hs
    exact h.poll hs.2
  case handleEvent => exact h.handleEvent hs

theorem of_reachable (h : Reachable (fun s a => s.avoidsBatch a) s) : Sound s :=
  h.invariant (fun _ _ _ hp hs h => h.step hp hs) ⟨nofun, nofun⟩

end Sound

theorem events_reach_their_fdevent (h : Reachable (fun s a => s.avoidsBatch a) s) :
    ∀ d ∈ s.log, d.receiver = d.event.id :=
  (Sound.of_reachable h).log

section Samples

def bothReady : List Action :=
  [.create 1 5, .create 2 6, .set 1 { read := true }, .set 2 { read := true },
    .poll 0 [(1, { input := true }), (2, { hup := true })], .handleEvent]

theorem events_reach_their_fdevent_sample : ∃ s : FdeventContext,
    Reachable (fun s a => s.avoidsBatch a) s ∧ s.log.length = 2 ∧
      ∀ d ∈ s.log, d.receiver = d.event.id := by
  have ⟨s, reached, length⟩ : ∃ s, Reachable (fun s a => s.avoidsBatch a) s ∧ s.log.length = 2 :=
    Reach.exists_of_guarded (fun _ _ h => h) (bothReady ++ [.deferredClose 1 3 0, .handleEvent])
      (by decide)
  exact ⟨s, reached, length, events_reach_their_fdevent reached⟩

-- The first callback closes the second socket, whose fd gets a new fdevent at the same address.
theorem event_reaches_new_fdevent : ∃ s : FdeventContext, Reachable (fun _ _ => True) s ∧
    ∃ d ∈ s.log, d.receiver ≠ d.event.id :=
  Reach.exists_of_exec (bothReady ++ [.deferredClose 2 2 0, .handleEvent]) (by decide)

end Samples

end FdeventContext

import LibAdb.Machine.Events

namespace EventBus

variable {b b' : EventBus} {e : Event} {p : Posted} {a : Action} {limit : Nat}

-- The limit of the queue stays as it is.
def isFixed (limit : Nat) (b : EventBus) (a : Action) : Bool :=
  match (b.program a).head? with
  | some (.setQueueLimit limit') => limit' == limit
  | _ => true

theorem Steps.queueLimit (h : Steps b s b' new) :
    s = .setQueueLimit b'.queueLimit ∨ b'.queueLimit = b.queueLimit := by
  cases h
  case setQueueLimit => exact .inl rfl
  case enqueue e =>
    right
    rw [enqueue_eq]
  case start =>
    right
    unfold EventBus.start
    split <;> rfl
  case unsubscribe =>
    right
    unfold EventBus.unsubscribe
    split <;> rfl
  all_goals exact .inr rfl

theorem Acts.queueLimit (h : Acts b a b') :
    (b.program a).head? = some (.setQueueLimit b'.queueLimit) ∨ b'.queueLimit = b.queueLimit := by
  cases h
  case call => exact .inr rfl
  case nest => exact .inr rfl
  case resume hk hs =>
    rw [program, hk]
    exact hs.queueLimit.imp (congrArg some) id
  case dispatch hd hs =>
    rw [program, hd]
    exact hs.queueLimit.imp (congrArg some) id

structure Bounded (limit : Nat) (b : EventBus) : Prop where
  fixed : b.queueLimit = limit
  size  : b.queue.length ≤ limit

theorem Bounded.next (h₀ : 0 < limit) (hf : b.isFixed limit a) (h : b.next a = some b')
    (hb : Bounded limit b) : Bounded limit b' where
  fixed := by
    rcases (next_acts h).queueLimit with hl | hl
    case inl =>
      rw [isFixed, hl] at hf
      exact beq_iff_eq.mp hf
    case inr => exact hl.trans hb.fixed
  size := by
    have moves := (next_acts h).moves
    generalize (b.program a).head? = first at *
    cases moves
    case same _ hs =>
      rw [hs.queue]
      exact hb.size
    case accepts ha =>
      rw [ha.queue, pushed, hb.fixed]
      exact BoundedQueue.length_push_le h₀ hb.size
    case takes ht =>
      have size := hb.size
      rw [ht.queue, List.length_cons] at size
      omega

theorem conserved (h : Runs P { queueLimit := limit } b) : Conserved b :=
  h.invariant (fun _ _ _ _ hn hc => hc.moves (next_acts hn).moves) (.initial limit)

theorem mem_dropped_next (h : b.next a = some b') :
    p ∈ b'.dropped ↔ p ∈ b.dropped ∨
      ∃ e, (b.program a).head? = some (.enqueue e) ∧ (b.pushed e).2 = some p := by
  have moves := (next_acts h).moves
  generalize (b.program a).head? = first at moves
  cases moves
  case same hf hs =>
    rw [hs.dropped]
    exact ⟨.inl, fun hp => hp.resolve_right fun ⟨e, he, _⟩ => hf e he⟩
  case accepts e ha => simp [ha.dropped]
  case takes ht => simp [ht.dropped]

theorem queue_conserves (h₀ : 0 < limit) (h : Runs (isFixed limit · ·) { queueLimit := limit } b) :
    b.queue.length ≤ limit ∧ Conserved b ∧
      ∀ a b', b.next a = some b' → b.queue.any (·.droppable) →
        ∀ p ∈ b'.dropped, p ∉ b.dropped → p.droppable := by
  have bounded : Bounded limit b :=
    h.invariant (fun _ _ _ hf hn hb => hb.next h₀ hf hn) ⟨rfl, Nat.zero_le _⟩
  refine ⟨bounded.size, conserved h, fun a b' hn hd p hp new => ?_⟩
  have ⟨e, _, he⟩ := ((mem_dropped_next hn).mp hp).resolve_left new
  by_contra critical
  have ⟨_, _, others, _⟩ := BoundedQueue.push_evicts.mp ⟨p, he, Bool.eq_false_iff.mpr critical⟩
  have ⟨q, hq, hqd⟩ := List.any_eq_true.mp hd
  exact absurd hqd (Bool.eq_false_iff.mp (others q hq))

-- A queue of two events is filled twice: the heartbeat goes, and the first of the others is taken.
theorem queue_conserves_two :
    ∃ b, Runs (isFixed 2 · ·) { queueLimit := 2 } b ∧ b.dropped.map (·.number) = [0] ∧
      b.dispatched.map (·.number) = [1] ∧ b.queue.map (·.number) = [2] ∧ b.queue.length ≤ 2 ∧
      Conserved b := by
  have ⟨b, h, dropped, dispatched, queue⟩ : ∃ b, Runs (isFixed 2 · ·) { queueLimit := 2 } b ∧
      b.dropped.map (·.number) = [0] ∧ b.dispatched.map (·.number) = [1] ∧
      b.queue.map (·.number) = [2] :=
    Reach.exists_of_guarded (fun _ _ hq => hq) [
      .call (.subscribe (some 0xffffffff)), .resume 0, .resume 0,
      .call (.publish { type := .operationHeartbeat }), .resume 1, .resume 1,
      .call (.publish { type := .operationStarted }), .resume 2, .resume 2,
      .call (.publish { type := .operationFinished }), .resume 3, .resume 3,
      .dispatch 0 .returns] (by decide +kernel)
  obtain ⟨size, conserved, _⟩ := queue_conserves Nat.two_pos h
  exact ⟨b, h, dropped, dispatched, queue, size, conserved⟩

-- Every accepted event that is not to be dropped is dispatched or waits.
def Keeps (b : EventBus) : Prop :=
  ∀ n e, b.accepted[n]? = some e → e.type.droppable = false →
    ⟨n, e⟩ ∈ b.dispatched ∨ ⟨n, e⟩ ∈ b.queue

-- An event that is not to be dropped finds room, or an event that may be dropped in its place.
def isRoomy (b : EventBus) (a : Action) : Bool :=
  match (b.program a).head? with
  | some (.enqueue e) =>
    e.type.droppable || b.queueLimit == 0 || decide (b.queue.length < b.queueLimit) ||
      b.queue.any (·.droppable)
  | _ => true

theorem isRoomy_eq_false :
    b.isRoomy a = false ↔ ∃ e, (b.program a).head? = some (.enqueue e) ∧
      ∃ p, (b.pushed e).2 = some p ∧ p.droppable = false := by
  constructor
  case mp =>
    intro h
    unfold isRoomy at h
    split at h
    case h_1 e he =>
      simp only [Bool.or_eq_false_iff, beq_eq_false_iff_ne, decide_eq_false_iff_not, not_lt] at h
      obtain ⟨⟨⟨hd, h₀⟩, full⟩, others⟩ := h
      refine ⟨e, he, BoundedQueue.push_evicts.mpr ⟨h₀, full, fun z hz => ?_, hd⟩⟩
      exact Bool.eq_false_iff.mpr (List.any_eq_false.mp others z hz)
    case h_2 => cases h
  case mpr =>
    intro ⟨e, he, hp⟩
    obtain ⟨h₀, full, others, hd⟩ := BoundedQueue.push_evicts.mp hp
    have none : b.queue.any (·.droppable) = false :=
      List.any_eq_false.mpr fun z hz => Bool.eq_false_iff.mp (others z hz)
    have critical : e.type.droppable = false := hd
    simp [isRoomy, he, none, critical, h₀, full]

theorem Conserved.keeps_iff (h : Conserved b) : b.Keeps ↔ ∀ p ∈ b.dropped, p.droppable := by
  constructor
  case mp =>
    intro keeps p hp
    by_contra hd
    have distinct : (b.entries.map (·.number)).Nodup := h.places.nodup_iff.mpr List.nodup_range
    have kept := keeps p.number p.event (h.posted p (List.mem_append_right _ hp))
      (Bool.eq_false_iff.mpr hd)
    rw [entries, List.map_append, List.nodup_append] at distinct
    refine distinct.2.2 p.number ?_ p.number (List.mem_map_of_mem hp) rfl
    exact List.mem_map_of_mem (f := (·.number)) (List.mem_append.mpr kept)
  case mpr =>
    intro dropped n e hn hd
    have range : n ∈ List.range b.accepted.length :=
      List.mem_range.mpr (List.getElem?_eq_some_iff.mp hn).choose
    obtain ⟨p, hp, rfl⟩ := List.mem_map.mp (h.places.mem_iff.mpr range)
    cases (h.posted p hp).symm.trans hn
    rcases List.mem_append.mp hp with hp | hp
    case inl => exact List.mem_append.mp hp
    case inr => exact absurd (dropped p hp) (Bool.eq_false_iff.mp hd)

theorem Conserved.keeps_next (h : Conserved b) (hn : b.next a = some b') (hk : b.Keeps) :
    b'.Keeps ↔ b.isRoomy a := by
  have dropped := h.keeps_iff.mp hk
  rw [(h.moves (next_acts hn).moves).keeps_iff]
  constructor
  case mp =>
    intro all
    by_contra hr
    obtain ⟨e, he, p, hp, hd⟩ := isRoomy_eq_false.mp (Bool.eq_false_iff.mpr hr)
    exact absurd (all p ((mem_dropped_next hn).mpr (.inr ⟨e, he, hp⟩))) (Bool.eq_false_iff.mp hd)
  case mpr =>
    intro roomy p hp
    rcases (mem_dropped_next hn).mp hp with hp | ⟨e, he, hp⟩
    case inl => exact dropped p hp
    case inr =>
      by_contra hd
      have := isRoomy_eq_false.mpr ⟨e, he, p, hp, Bool.eq_false_iff.mpr hd⟩
      exact Bool.false_ne_true (this.symm.trans roomy)

theorem critical_events_survive (h : Runs (isRoomy · ·) { queueLimit := limit } b) :
    b.Keeps ∧ ∀ a b', b.next a = some b' → (b'.Keeps ↔ b.isRoomy a) := by
  have keeps : b.Keeps := by
    refine h.invariant_under (I := Conserved) ?_ ?_ (.initial limit) ?_
    · intro s a s' _ hn hc
      exact hc.moves (next_acts hn).moves
    · intro s a s' hc hr hn hk
      exact (hc.keeps_next hn hk).mpr hr
    · intro n e hn
      cases hn
  exact ⟨keeps, fun a b' hn => (conserved h).keeps_next hn keeps⟩

-- One more event finds a heartbeat in the full queue.
theorem critical_events_survive_heartbeat :
    ∃ b, Runs (isRoomy · ·) { queueLimit := 1 } b ∧ b.running ∧ b.dropped.map (·.number) = [0] ∧
      b.accepted = [{ type := .operationHeartbeat }, { type := .operationFinished }] ∧ b.Keeps := by
  have ⟨b, h, running, dropped, accepted⟩ : ∃ b, Runs (isRoomy · ·) { queueLimit := 1 } b ∧
      b.running ∧ b.dropped.map (·.number) = [0] ∧
      b.accepted = [{ type := .operationHeartbeat }, { type := .operationFinished }] :=
    Reach.exists_of_guarded (fun _ _ hq => hq) [
      .call (.subscribe (some 0xffffffff)), .resume 0, .resume 0,
      .call (.publish { type := .operationHeartbeat }), .resume 1, .resume 1,
      .call (.publish { type := .operationFinished }), .resume 2, .resume 2] (by decide +kernel)
  exact ⟨b, h, running, dropped, accepted, (critical_events_survive h).left⟩

-- The queue is full of such events: the oldest one is lost.
theorem critical_event_dropped :
    ∃ b, Runs (fun _ _ => True) { queueLimit := 1 } b ∧ b.running ∧
      b.accepted[0]? = some { type := .operationFinished } ∧
      EventType.operationFinished.droppable = false ∧ b.dispatched = [] ∧
      b.queue = [⟨1, { type := .operationFailed }⟩] ∧ b.dropped.map (·.number) = [0] :=
  Reach.exists_of_exec [.call (.subscribe (some 0xffffffff)), .resume 0, .resume 0,
    .call (.publish { type := .operationFinished }), .resume 1, .resume 1,
    .call (.publish { type := .operationFailed }), .resume 2, .resume 2] (by decide +kernel)

end EventBus

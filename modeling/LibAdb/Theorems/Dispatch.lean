import LibAdb.Machine.Dispatch

def BusStep.handles : BusStep → Option (Posted × Subscriber)
  | .handle p s => some (p, s)
  | _ => none

namespace EventBus

def inside (b : EventBus) : Nat :=
  b.dispatchers.countP (!·.isEmpty)

-- A dispatcher is started when the others have left their loop.
def isSpent (b : EventBus) (a : Action) : Bool :=
  (b.program a).head? != some .start || b.running || b.dispatchers.all (·.isEmpty)

def handlers (program : List BusStep) : List (Posted × Subscriber) :=
  program.filterMap (·.handles)

inductive Delivers (b : EventBus) : BusStep → EventBus → List BusStep → Prop
  | quiet :
    b'.delivered = b.delivered → b'.dispatched = b.dispatched → handlers new = [] →
    Delivers b s b' new
  | takes :
    b.queue = p :: rest → b'.delivered = b.delivered → b'.dispatched = b.dispatched ++ [p] →
    handlers new = (b.subscribers.filter fun s => p.event.type.isIn s.mask).map (p, ·) →
    Delivers b .wait b' new
  | handles :
    b'.delivered = b.delivered ++ [(s.id, p.number)] → b'.dispatched = b.dispatched →
    handlers new = [] → Delivers b (.handle p s) b' new

structure Registered (b : EventBus) : Prop where
  ids   : (b.subscribers.map (·.id)).Nodup
  fresh : ∀ s ∈ b.subscribers, s.id < b.nextId

structure Pending (b : EventBus) (round : List (Posted × Subscriber)) : Prop where
  distinct : round.Pairwise fun x y => x.2.id ≠ y.2.id
  taken    : ∀ x ∈ round, x.1 ∈ b.dispatched
  later    : ∀ x ∈ round, ∀ y ∈ b.delivered, y.1 = x.2.id → y.2 < x.1.number

structure InOrder (b : EventBus) : Prop where
  registered : Registered b
  taken      : ∀ y ∈ b.delivered, ∃ p ∈ b.dispatched, p.number = y.2
  ordered    : b.delivered.Pairwise fun x y => x.1 = y.1 → x.2 < y.2
  pending    : ∀ program ∈ b.dispatchers, Pending b (handlers program)

variable {b b' : EventBus} {a : Action} {s : BusStep} {new rest program old : List BusStep}
  {p : Posted} {queue : List Posted} {round round' : List (Posted × Subscriber)} {d limit : Nat}

theorem isSpent_iff :
    b.isSpent a ↔ ((b.program a).head? = some .start → b.running = false → b.inside = 0) := by
  have empty : b.inside = 0 ↔ b.dispatchers.all (·.isEmpty) := by
    simp [inside, List.countP_eq_zero]
  rw [empty, isSpent]
  cases b.running <;> cases b.dispatchers.all (·.isEmpty) <;> simp

theorem Steps.inside (h : Steps b s b' new) :
    (s = .start → b.running) ∧ b'.inside = b.inside ∨
      s = .start ∧ b.running = false ∧ b'.inside = b.inside + 1 := by
  cases h.switches
  case same hs _ _ hd => exact .inl ⟨hs, by rw [EventBus.inside, EventBus.inside, hd]⟩
  case start hr _ _ hd => exact .inr ⟨rfl, hr, by simp [EventBus.inside, hd]⟩
  case stop hd => exact .inl ⟨nofun, by rw [EventBus.inside, EventBus.inside, hd]⟩

theorem inside_set (hd : b.dispatchers[d]? = some old) (hn : old ≠ []) (program : List BusStep) :
    EventBus.inside { b with dispatchers := b.dispatchers.set d program } + 1 =
      b.inside + (!program.isEmpty).toNat := by
  have count := List.countP_set_add (p := (!·.isEmpty)) (b := program) hd
  rw [List.isEmpty_eq_false_iff.mpr hn] at count
  exact count

theorem Steps.getElem?_dispatchers (h : Steps b s b' new) (hd : b.dispatchers[d]? = some old) :
    b'.dispatchers[d]? = some old := by
  cases h.switches
  case same hs => rw [hs, hd]
  case start hs =>
    rw [hs, List.getElem?_append_left (List.getElem?_eq_some_iff.mp hd).choose, hd]
  case stop hs => rw [hs, hd]

theorem inside_next (hl : Live b) (hn : b.next a = some b') (hi : b.inside ≤ 1) :
    b'.inside ≤ 1 ↔ b.isSpent a := by
  rw [isSpent_iff]
  cases next_acts hn
  case call => exact ⟨nofun, fun _ => hi⟩
  case nest d old c hd h =>
    have hne : old ≠ [] := by
      rintro rfl
      cases h
    have count := inside_set hd hne (steps c ++ old)
    have := Bool.toNat_le (!(steps c ++ old).isEmpty)
    exact ⟨nofun, fun _ => by omega⟩
  case resume k s rest b₁ new hk hs =>
    simp only [program, hk, Option.getD_some, List.head?_cons, Option.some.injEq]
    change b₁.inside ≤ 1 ↔ _
    rcases hs.inside with ⟨hr, same⟩ | ⟨rfl, hr, more⟩
    case inl =>
      rw [same]
      exact ⟨fun _ h h' => absurd (hr h) (Bool.eq_false_iff.mp h'), fun _ => hi⟩
    case inr =>
      rw [more]
      exact ⟨fun h _ _ => by omega, fun h => by simp [h rfl hr]⟩
  case dispatch d s rest b₁ new outcome hd hs =>
    simp only [program, hd, Option.getD_some, List.head?_cons, Option.some.injEq]
    have hd' := hs.getElem?_dispatchers hd
    have count := inside_set hd' (List.cons_ne_nil s rest) (new ++ rest)
    have one := Bool.toNat_le (!(new ++ rest).isEmpty)
    rcases hs.inside with ⟨hr, same⟩ | ⟨rfl, hr, more⟩
    case inl => exact ⟨fun _ h h' => absurd (hr h) (Bool.eq_false_iff.mp h'), fun _ => by omega⟩
    case inr =>
      have hne : rest ≠ [] := by
        rcases (hl.loops _ (List.mem_of_getElem? hd)).cases_cons with ⟨h, _⟩ | ⟨_, h, _⟩
        case inl => cases h
        case inr => exact h
      have stays : (!(new ++ rest).isEmpty) = true := by simp [hne]
      rw [stays, Bool.toNat_true] at count
      exact ⟨fun h _ _ => by omega, fun h => by have := h rfl hr; omega⟩

theorem handlers_append (l₁ l₂ : List BusStep) : handlers (l₁ ++ l₂) = handlers l₁ ++ handlers l₂ :=
  List.filterMap_append ..

theorem handlers_eq_nil (h : ∀ t ∈ program, t.isRound = false) : handlers program = [] := by
  refine List.filterMap_eq_nil_iff.mpr fun t ht => ?_
  have outside := h t ht
  cases t
  case handle => cases outside
  all_goals rfl

theorem handlers_take (b : EventBus) (p : Posted) (queue : List Posted) :
    handlers (b.take p queue).2 =
      (b.subscribers.filter fun s => p.event.type.isIn s.mask).map (p, ·) := by
  have calls (l : List Subscriber) : handlers (l.map (.handle p)) = l.map (p, ·) := by
    induction l
    case nil => rfl
    case cons s l ih => exact congrArg ((p, s) :: ·) ih
  have reports (n : Nat) :
      handlers (if n > 0 then [.publish (overflow n)] else []) = [] := by
    split <;> rfl
  unfold take
  rw [handlers_append, handlers_append, calls, reports]
  exact (List.append_nil _).trans (List.append_nil _)

theorem Steps.delivers (h : Steps b s b' new) : Delivers b s b' new := by
  have outside := fun hs => handlers_eq_nil (h.isRound hs)
  cases h
  case enqueue =>
    rw [enqueue_eq]
    exact .quiet rfl rfl rfl
  case start hr =>
    have same := start_same b
    have delivered : b.start.delivered = b.delivered := by
      unfold EventBus.start
      split <;> rfl
    exact .quiet delivered same.dispatched rfl
  case stop => exact .quiet rfl rfl (outside rfl)
  case subscribe => exact .quiet rfl rfl (outside rfl)
  case unsubscribe i =>
    have same := unsubscribe_same b i
    have delivered : (b.unsubscribe i).delivered = b.delivered := by
      unfold EventBus.unsubscribe
      split <;> rfl
    exact .quiet delivered same.dispatched rfl
  case replacePrimary => exact .quiet rfl rfl (outside rfl)
  case take p queue hq => exact .takes hq rfl rfl (handlers_take b p queue)
  case handle => exact .handles rfl rfl rfl
  all_goals exact .quiet rfl rfl rfl

theorem Registered.steps (h : Registered b) (hs : Steps b s b' new) : Registered b' := by
  cases hs
  case enqueue =>
    rw [enqueue_eq]
    exact ⟨h.ids, h.fresh⟩
  case start =>
    unfold EventBus.start
    split <;> exact ⟨h.ids, h.fresh⟩
  case subscribe mask primary =>
    constructor
    case ids =>
      have ids : (b.subscribe mask).subscribers.map (·.id) = b.subscribers.map (·.id) ++ [b.nextId] :=
        List.map_append
      rw [ids]
      refine List.nodup_append.mpr ⟨h.ids, List.nodup_singleton _, fun i hi j hj => ?_⟩
      obtain ⟨s, hs, rfl⟩ := List.mem_map.mp hi
      rw [List.mem_singleton.mp hj]
      exact (h.fresh s hs).ne
    case fresh =>
      intro s hs
      rcases List.mem_append.mp hs with hs | hs
      case inl => exact Nat.lt_succ_of_lt (h.fresh s hs)
      case inr =>
        rw [List.mem_singleton.mp hs]
        exact Nat.lt_succ_self _
  case unsubscribe i =>
    unfold EventBus.unsubscribe
    split
    case isTrue =>
      have sublist := List.eraseP_sublist (p := (·.id == i)) (l := b.subscribers)
      exact ⟨h.ids.sublist (sublist.map _), fun s hs => h.fresh s (sublist.mem hs)⟩
    case isFalse => exact h
  all_goals exact ⟨h.ids, h.fresh⟩

theorem Pending.nil : Pending b [] where
  distinct := .nil
  taken := by simp
  later := by simp

theorem Pending.congr (h : Pending b round) (hd : b'.delivered = b.delivered)
    (ht : b'.dispatched = b.dispatched) : Pending b' round where
  distinct := h.distinct
  taken := ht ▸ h.taken
  later := hd ▸ h.later

theorem Pending.sublist (h : Pending b round) (hs : round'.Sublist round) : Pending b round' where
  distinct := h.distinct.sublist hs
  taken x hx := h.taken x (hs.mem hx)
  later x hx := h.later x (hs.mem hx)

namespace InOrder

theorem take (h : InOrder b) (hc : Conserved b) (hq : b.queue = p :: queue)
    (hd : b'.delivered = b.delivered) (ht : b'.dispatched = b.dispatched ++ [p]) :
    Pending b' ((b.subscribers.filter fun s => p.event.type.isIn s.mask).map (p, ·)) where
  distinct := by
    refine List.pairwise_map.mpr (List.Pairwise.filter _ ?_)
    exact List.pairwise_map.mp h.registered.ids
  taken x hx := by
    obtain ⟨s, _, rfl⟩ := List.mem_map.mp hx
    rw [ht]
    exact List.mem_append_right _ (List.mem_singleton_self p)
  later x hx y hy _ := by
    obtain ⟨s, _, rfl⟩ := List.mem_map.mp hx
    obtain ⟨q, hq', hn⟩ := h.taken y (hd ▸ hy)
    have ordered := hc.ordered
    rw [hq] at ordered
    rw [← hn]
    exact (List.pairwise_append.mp ordered).2.2 q hq' p List.mem_cons_self

structure Dispatched (b' : EventBus) (program : List BusStep) : Prop where
  taken   : ∀ y ∈ b'.delivered, ∃ p ∈ b'.dispatched, p.number = y.2
  ordered : b'.delivered.Pairwise fun x y => x.1 = y.1 → x.2 < y.2
  pending : Pending b' (handlers program)

theorem dispatch (h : InOrder b) (hc : Conserved b) (hl : Loops (s :: rest))
    (hp : Pending b (handlers (s :: rest))) (hs : Steps b s b' new) : Dispatched b' (new ++ rest) := by
  cases hs.delivers
  case quiet hd ht hh =>
    refine ⟨hd ▸ ht ▸ h.taken, hd ▸ h.ordered, ?_⟩
    rw [handlers_append, hh, List.nil_append]
    refine (hp.congr hd ht).sublist ?_
    exact (List.sublist_cons_self s rest).filterMap _
  case takes p queue hq hd ht hh =>
    have last : rest = [] := by
      rcases hl.cases_cons with ⟨_, h⟩ | ⟨h, _⟩
      case inl => exact h
      case inr => cases h
    refine ⟨fun y hy => ?_, hd ▸ h.ordered, ?_⟩
    · obtain ⟨q, hq, hn⟩ := h.taken y (hd ▸ hy)
      rw [ht]
      exact ⟨q, List.mem_append_left _ hq, hn⟩
    · rw [last, List.append_nil, hh]
      exact h.take hc hq hd ht
  case handles p x hd ht hh =>
    have ⟨others, distinct⟩ := List.pairwise_cons.mp hp.distinct
    have first : (p, x) ∈ handlers (.handle p x :: rest) := List.mem_cons_self
    refine ⟨fun y hy => ?_, ?_, ?_⟩
    · rw [ht]
      rw [hd] at hy
      rcases List.mem_append.mp hy with hy | hy
      case inl => exact h.taken y hy
      case inr =>
        rw [List.mem_singleton.mp hy]
        exact ⟨p, hp.taken _ first, rfl⟩
    · rw [hd]
      refine List.pairwise_append.mpr ⟨h.ordered, List.pairwise_singleton .., fun y hy z hz => ?_⟩
      rw [List.mem_singleton.mp hz]
      exact hp.later _ first y hy
    · rw [handlers_append, hh, List.nil_append]
      refine ⟨distinct, fun z hz => ?_, fun z hz y hy he => ?_⟩
      · rw [ht]
        exact hp.taken z (List.mem_cons_of_mem _ hz)
      · rw [hd] at hy
        rcases List.mem_append.mp hy with hy | hy
        case inl => exact hp.later z (List.mem_cons_of_mem _ hz) y hy he
        case inr =>
          rw [List.mem_singleton.mp hy] at he
          exact absurd he (others z hz)

theorem steps (h : InOrder b) (hs : Steps b s b' new) (ht : s.isRound = false) : InOrder b' := by
  cases hs.delivers
  case takes => cases ht
  case handles => cases ht
  case quiet hd ht hh =>
    refine ⟨h.registered.steps hs, hd ▸ ht ▸ h.taken, hd ▸ h.ordered, fun program hp => ?_⟩
    refine Pending.congr ?_ hd ht
    cases hs.switches
    case same hds => exact h.pending program (hds ▸ hp)
    case start hds =>
      rw [hds] at hp
      rcases List.mem_append.mp hp with hp | hp
      case inl => exact h.pending program hp
      case inr =>
        rw [List.mem_singleton.mp hp]
        exact .nil
    case stop hds => exact h.pending program (hds ▸ hp)

theorem others (h : b.inside ≤ 1) (hd : b.dispatchers[d]? = some (s :: rest))
    (hs : Steps b s b' new) (hp : program ∈ b'.dispatchers.set d old) :
    program = old ∨ handlers program = [] := by
  rcases List.mem_set_cases hp with hp | ⟨n, hn, hp⟩
  case inl => exact .inl hp
  case inr =>
    right
    have left (ho : b.dispatchers[n]? = some program) : handlers program = [] := by
      cases program
      case nil => rfl
      case cons => exact absurd (List.eq_of_countP_le_one h ho rfl hd rfl) hn
    cases hs.switches
    case same hds => exact left (hds ▸ hp)
    case start hds =>
      rw [hds, List.getElem?_append] at hp
      split at hp
      case isTrue => exact left hp
      case isFalse =>
        rw [List.mem_singleton.mp (List.mem_of_getElem? hp)]
        rfl
    case stop hds => exact left (hds ▸ hp)

theorem next (h : InOrder b) (hc : Conserved b) (hl : Live b) (hi : b.inside ≤ 1)
    (hn : b.next a = some b') : InOrder b' := by
  cases next_acts hn
  case call =>
    refine ⟨⟨h.registered.ids, h.registered.fresh⟩, h.taken, h.ordered, fun program hp => ?_⟩
    exact (h.pending program hp).congr rfl rfl
  case nest d old c hd _ =>
    refine ⟨⟨h.registered.ids, h.registered.fresh⟩, h.taken, h.ordered, fun program hp => ?_⟩
    refine Pending.congr (b := b) ?_ rfl rfl
    refine List.forall_mem_set h.pending ?_ program hp
    rw [handlers_append, handlers_eq_nil (isRound_steps c), List.nil_append]
    exact h.pending old (List.mem_of_getElem? hd)
  case resume k s rest b₁ new hk hs =>
    have round := hl.calls _ (List.mem_of_getElem? hk) s List.mem_cons_self
    have h := h.steps hs round
    refine ⟨⟨h.registered.ids, h.registered.fresh⟩, h.taken, h.ordered, fun program hp => ?_⟩
    exact (h.pending program hp).congr rfl rfl
  case dispatch d s rest b₁ new outcome hd hs =>
    have mem := List.mem_of_getElem? hd
    have after := h.dispatch hc (hl.loops _ mem) (h.pending _ mem) hs
    have registered := h.registered.steps hs
    refine ⟨⟨registered.ids, registered.fresh⟩, after.taken, after.ordered, fun program hp => ?_⟩
    rcases others hi hd hs hp with rfl | hp
    case inl => exact after.pending.congr rfl rfl
    case inr =>
      rw [hp]
      exact .nil

end InOrder

-- What holds of a bus whose dispatchers come one after the other.
structure Single (b : EventBus) : Prop where
  conserved : Conserved b
  live      : Live b
  inside    : b.inside ≤ 1
  inOrder   : InOrder b

theorem Single.initial (limit : Nat) : Single { queueLimit := limit } where
  conserved := .initial limit
  live := .initial limit
  inside := Nat.zero_le _
  inOrder := {
    registered := ⟨.nil, by simp⟩
    taken := by simp
    ordered := .nil
    pending := by simp }

theorem Single.next (h : Single b) (hs : b.isSpent a) (hn : b.next a = some b') : Single b' where
  conserved := h.conserved.moves (next_acts hn).moves
  live := h.live.next hn
  inside := (inside_next h.live hn h.inside).mpr hs
  inOrder := h.inOrder.next h.conserved h.live h.inside hn

-- At most one dispatcher is in its loop, and every subscriber gets its events in their order.
theorem one_dispatcher (h : Runs (isSpent · ·) { queueLimit := limit } b) :
    b.inside ≤ 1 ∧ b.delivered.Pairwise (fun x y => x.1 = y.1 → x.2 < y.2) ∧
      ∀ a b', b.next a = some b' → (b'.inside ≤ 1 ↔ b.isSpent a) := by
  have single : Single b := h.invariant (fun _ _ _ hs hn h => h.next hs hn) (.initial limit)
  exact ⟨single.inside, single.inOrder.ordered, fun a b' hn => inside_next single.live hn single.inside⟩

-- A stop waits for a dispatcher that is in a handler, and the dispatcher of the next start comes
-- after it.
theorem one_dispatcher_restarted :
    ∃ b, Runs (isSpent · ·) {} b ∧ b.dispatchers.length = 2 ∧ b.delivered = [(1, 0), (1, 1)] ∧
      b.inside ≤ 1 ∧ b.delivered.Pairwise (fun x y => x.1 = y.1 → x.2 < y.2) := by
  have ⟨b, h, length, delivered⟩ : ∃ b, Runs (isSpent · ·) {} b ∧ b.dispatchers.length = 2 ∧
      b.delivered = [(1, 0), (1, 1)] :=
    Reach.exists_of_guarded (fun _ _ hq => hq) (List.flatten [
      [.call (.subscribe (some 0xffffffff)), .resume 0, .resume 0,
        .call (.publish { type := .operationStarted }), .resume 1, .resume 1],
      List.replicate 2 (.dispatch 0 .returns), [.call .stop, .resume 2],
      List.replicate 3 (.dispatch 0 .returns),
      [.resume 2, .call .start, .resume 3, .call (.publish { type := .operationFinished }),
        .resume 4, .resume 4], List.replicate 2 (.dispatch 1 .returns)]) (by decide +kernel)
  have ⟨inside, ordered, _⟩ := one_dispatcher h
  exact ⟨b, h, length, delivered, inside, ordered⟩

-- A subscription restarts the bus while a stop waits for the dispatcher: both of them take an event,
-- and the second one is delivered first.
theorem two_dispatchers :
    ∃ b b', Runs (fun _ _ => True) {} b ∧ b.inside = 2 ∧ b.calls[3]? = some [.join 0] ∧
      Runs (fun _ _ => True) b b' ∧ b'.delivered = [(1, 1), (1, 0)] ∧
      b'.dispatched.map (·.number) = [0, 1] := by
  have run : (exec next {} ([
      .call (.subscribe (some 0xffffffff)), .resume 0, .resume 0,
      .call (.publish { type := .operationStarted }), .resume 1, .resume 1,
      .call (.publish { type := .operationFinished }), .resume 2, .resume 2,
      .dispatch 0 .returns, .call .stop, .resume 3, .call (.subscribe (some 0)), .resume 4,
      .resume 4])).any fun b => b.inside == 2 && b.calls[3]? == some [.join 0] &&
        (exec next b [.dispatch 1 .returns, .dispatch 1 .returns, .dispatch 0 .returns]).any fun b' =>
          b'.delivered == [(1, 1), (1, 0)] && b'.dispatched.map (·.number) == [0, 1] := by
    decide +kernel
  simp only [Option.any_eq_true, Bool.and_eq_true, beq_iff_eq] at run
  obtain ⟨b, hb, ⟨inside, join⟩, b', hb', delivered, dispatched⟩ := run
  exact ⟨b, b', .of_exec hb, inside, join, .of_exec hb', delivered, dispatched⟩

end EventBus

import LibAdb.Machine.Dispatch

-- The steps that change the subscriptions, the state of the bus or that of the client.
def BusStep.isChange : BusStep → Bool
  | .start | .stop | .subscribe _ _ | .unsubscribe _ | .replacePrimary _ | .setPrimary _
  | .initialise _ | .shutdown => true
  | _ => false

-- What the calls are about, each of them being one change.
structure Subscriptions where
  running     : Bool
  initialized : Bool
  subscribers : List Subscriber
  primaryId   : Nat
  nextId      : Nat

namespace Subscriptions

def subscribe (c : Subscriptions) (mask : UInt64) (primary : Bool) : Subscriptions :=
  { c with
    running := true
    subscribers := c.subscribers ++ [⟨c.nextId, mask⟩]
    primaryId := if primary then c.nextId else c.primaryId
    nextId := c.nextId + 1 }

def unsubscribe (c : Subscriptions) (id : Nat) : Subscriptions :=
  if c.subscribers.any (·.id == id) then
    { c with
      subscribers := c.subscribers.eraseP (·.id == id)
      primaryId := if c.primaryId = id then 0 else c.primaryId }
  else c

def removePrimary (c : Subscriptions) : Subscriptions :=
  if c.primaryId = 0 then c else c.unsubscribe c.primaryId

def change (c : Subscriptions) : BusStep → Subscriptions
  | .start => { c with running := true }
  | .stop => { c with running := false }
  | .subscribe mask primary => c.subscribe mask primary
  | .unsubscribe id => c.unsubscribe id
  | .replacePrimary none => c.removePrimary
  | .replacePrimary (some mask) => c.removePrimary.subscribe mask true
  | .setPrimary id => { c with primaryId := id }
  | .initialise loaded => { c with initialized := c.initialized || loaded }
  | .shutdown => if c.initialized then { c with initialized := false, running := false } else c
  | _ => c

def Served (c : Subscriptions) : Prop :=
  c.initialized → c.subscribers ≠ [] → c.running

-- The subscribers are served all along the given changes, but for the moment before a start.
def ServedAlong (c : Subscriptions) : List BusStep → Prop
  | [] => c.Served
  | s :: rest => (c.Served ∨ s = .start) ∧ ServedAlong (c.change s) rest

variable {c : Subscriptions} {s : BusStep} {rest : List BusStep}

theorem Served.of_running (h : c.running) : c.Served :=
  fun _ _ => h

theorem Served.unsubscribe (h : c.Served) (id : Nat) : (c.unsubscribe id).Served := by
  unfold Subscriptions.unsubscribe
  split
  case isTrue =>
    intro hi hs
    refine h hi fun he => hs ?_
    simp [he]
  case isFalse => exact h

theorem Served.removePrimary (h : c.Served) : c.removePrimary.Served := by
  unfold Subscriptions.removePrimary
  split
  case isTrue => exact h
  case isFalse => exact h.unsubscribe _

theorem removePrimary_states :
    c.removePrimary.running = c.running ∧ c.removePrimary.initialized = c.initialized := by
  unfold removePrimary
  split
  case isTrue => exact ⟨rfl, rfl⟩
  case isFalse =>
    unfold unsubscribe
    split <;> exact ⟨rfl, rfl⟩

theorem removePrimary_nil (h : c.subscribers = []) : c.removePrimary.subscribers = [] := by
  unfold removePrimary
  split
  case isTrue => exact h
  case isFalse => simp [unsubscribe, h]

theorem removePrimary_subscribers (hp : c.primaryId ≠ 0) :
    c.removePrimary.subscribers = c.subscribers.eraseP (·.id == c.primaryId) := by
  rw [removePrimary, if_neg hp, unsubscribe]
  split
  case isTrue => rfl
  case isFalse hn => exact (List.eraseP_of_forall_not (by simpa using hn)).symm

end Subscriptions

namespace EventBus

open Subscriptions (ServedAlong)

def subscriptions (b : EventBus) : Subscriptions :=
  ⟨b.running, b.initialized, b.subscribers, b.primaryId, b.nextId⟩

def changes (program : List BusStep) : List BusStep :=
  program.filter (·.isChange)

def threads (b : EventBus) : List (List BusStep) :=
  b.calls ++ b.dispatchers

def underway (b : EventBus) : List BusStep :=
  b.threads.flatMap changes

-- The calls that change something come one after the other, and none of them stops the bus alone.
def isSequential (b : EventBus) : Action → Bool
  | .call call | .nest _ call =>
    changes (steps call) = [] || b.underway = [] && call != .stop
  | _ => true

-- A client that is down is initialised without a handler when the bus runs, or when it has no
-- subscriber but the primary one, which goes.
def attends (b : EventBus) : BusCall → Bool
  | .initialise _ none loaded =>
    !loaded || b.initialized || b.running || b.subscribers.isEmpty ||
      b.primaryId != 0 && b.subscribers.map (·.id) == [b.primaryId]
  | _ => true

def isAttended (b : EventBus) : Action → Bool
  | .call call | .nest _ call => b.attends call
  | _ => true

variable {b b₁ b' : EventBus} {a : Action} {s : BusStep} {new rest program old : List BusStep}
  {c : BusCall} {d i limit : Nat} {loaded : Bool}

theorem changes_append (l₁ l₂ : List BusStep) : changes (l₁ ++ l₂) = changes l₁ ++ changes l₂ :=
  List.filter_append ..

theorem subscriptions_unsubscribe (b : EventBus) (i : Nat) :
    (b.unsubscribe i).subscriptions = b.subscriptions.unsubscribe i := by
  by_cases h : b.subscribers.any (·.id == i)
  case pos =>
    rw [EventBus.unsubscribe, if_pos h]
    exact (if_pos h).symm
  case neg =>
    rw [EventBus.unsubscribe, if_neg h]
    exact (if_neg h).symm

theorem changes_take (b : EventBus) (p : Posted) (queue : List Posted) :
    changes (b.take p queue).2 = [] := by
  refine List.filter_eq_nil_iff.mpr fun t ht => ?_
  rcases mem_take ht with ⟨x, rfl⟩ | ⟨n, rfl⟩ | rfl
  all_goals exact Bool.false_ne_true

theorem Steps.unchanged (h : Steps b s b' new) (hs : s.isChange = false) :
    b'.subscriptions = b.subscriptions ∧ changes new = [] := by
  cases h
  case enqueue =>
    rw [enqueue_eq]
    exact ⟨rfl, rfl⟩
  case take p queue hq => exact ⟨rfl, changes_take b p queue⟩
  all_goals first | exact ⟨rfl, rfl⟩ | cases hs

theorem Steps.change (h : Steps b s b' new) (hs : s.isChange)
    (hg : ServedAlong b.subscriptions (s :: rest)) :
    ServedAlong b'.subscriptions (changes new ++ rest) := by
  obtain ⟨served, hg⟩ := hg
  cases h
  case started hr =>
    have same : b.subscriptions.change .start = b.subscriptions := by
      rw [subscriptions, hr]
      rfl
    exact same ▸ hg
  case start hr =>
    have start : b.start.subscriptions = b.subscriptions.change .start := by
      rw [EventBus.start, if_neg (Bool.eq_false_iff.mp hr)]
      rfl
    exact start ▸ hg
  case stop =>
    have joins : changes (b.dispatcher.toList.map .join) = [] := by
      cases b.dispatcher <;> rfl
    rw [joins]
    exact hg
  case stopped hr =>
    have same : b.subscriptions.change .stop = b.subscriptions := by
      rw [subscriptions, hr]
      rfl
    exact same ▸ hg
  case subscribe mask primary =>
    refine ⟨.inr rfl, ?_⟩
    cases primary
    case false => exact hg
    case true => exact ⟨.inl (.of_running rfl), hg⟩
  case unsubscribe i =>
    rw [subscriptions_unsubscribe]
    exact hg
  case replacePrimary handler =>
    have primary := served.resolve_right (by rintro ⟨⟩)
    have removed (l : List BusStep) (hl : ServedAlong b.subscriptions.removePrimary l) :
        ServedAlong b.subscriptions
          (changes (if b.primaryId = 0 then [] else [.unsubscribe b.primaryId]) ++ l) := by
      by_cases hp : b.primaryId = 0
      case pos =>
        have same : b.subscriptions.removePrimary = b.subscriptions := if_pos hp
        rw [if_pos hp]
        exact same ▸ hl
      case neg =>
        have removed : b.subscriptions.removePrimary = b.subscriptions.unsubscribe b.primaryId :=
          if_neg hp
        rw [if_neg hp]
        rw [removed] at hl
        exact ⟨.inl primary, hl⟩
    rw [changes_append, List.append_assoc]
    cases handler
    case none => exact removed rest hg
    case some mask => exact removed (.subscribe mask true :: rest) ⟨.inl primary.removePrimary, hg⟩
  case setPrimary => exact hg
  case initialise => exact hg
  case shutdown hi =>
    have down : b.subscriptions.change .shutdown =
        { b.subscriptions with initialized := false, running := false } := if_pos hi
    rw [down] at hg
    exact ⟨.inl (by rintro ⟨⟩), hg⟩
  case down hi =>
    have same : b.subscriptions.change .shutdown = b.subscriptions :=
      if_neg (Bool.eq_false_iff.mp hi)
    exact same ▸ hg
  all_goals cases hs

theorem initialise_served (h : b.subscriptions.Served)
    (ha : b.attends (.initialise limit none loaded)) :
    (b.subscriptions.removePrimary.change (.initialise loaded)).Served := by
  intro hi hs
  have ⟨running, initialized⟩ := b.subscriptions.removePrimary_states
  simp only [attends, Bool.or_eq_true, Bool.not_eq_true', Bool.and_eq_true, bne_iff_ne,
    beq_iff_eq, List.isEmpty_iff] at ha
  rcases ha with (((hl | hb) | hr) | he) | ⟨hp, hx⟩
  case inl.inl.inl.inl =>
    subst hl
    exact h.removePrimary ((Bool.or_false _).symm.trans hi) hs
  case inl.inl.inl.inr => exact h.removePrimary (initialized.trans hb) hs
  case inl.inl.inr => exact running.trans hr
  case inl.inr => exact absurd (Subscriptions.removePrimary_nil he) hs
  case inr =>
    obtain ⟨x, hx, he⟩ := List.map_eq_singleton_iff.mp hx
    have removed := Subscriptions.removePrimary_subscribers (c := b.subscriptions) hp
    refine absurd (removed.trans ?_) hs
    simp [subscriptions, hx, he]

theorem steps_servedAlong (call : BusCall) (h : b.subscriptions.Served) (hs : call ≠ .stop)
    (ha : b.attends call) : ServedAlong b.subscriptions (changes (steps call)) := by
  cases call
  case publish => exact h
  case start => exact ⟨.inl h, .of_running rfl⟩
  case stop => exact absurd rfl hs
  case subscribe handler =>
    cases handler
    case none => exact h
    case some => exact ⟨.inl h, .of_running rfl⟩
  case unsubscribe i => exact ⟨.inl h, h.unsubscribe i⟩
  case setQueueLimit => exact h
  case initialise limit handler loaded =>
    cases handler
    case none => exact ⟨.inl h, .inl h.removePrimary, initialise_served h ha⟩
    case some => exact ⟨.inl h, .inl (.of_running rfl), .of_running rfl⟩
  case shutdown =>
    refine ⟨.inl h, ?_⟩
    by_cases hi : b.initialized
    case pos =>
      have down : b.subscriptions.change .shutdown =
          { b.subscriptions with initialized := false, running := false } := if_pos hi
      rw [down]
      exact nofun
    case neg =>
      have same : b.subscriptions.change .shutdown = b.subscriptions := if_neg hi
      rw [same]
      exact h

def busy (b : EventBus) : Nat :=
  b.threads.countP (fun program => !(changes program).isEmpty)

-- At most one thread is in a call that changes something, and the call goes well.
structure Serial (b : EventBus) : Prop where
  one    : b.busy ≤ 1
  served : ServedAlong b.subscriptions b.underway

theorem Steps.threads (h : Steps b s b' new) :
    b'.threads = b.threads ∨ b'.threads = b.threads ++ [[.wait]] := by
  rw [EventBus.threads, EventBus.threads, h.calls]
  cases h.switches
  case same hd => exact .inl (by rw [hd])
  case start hd => exact .inr (by rw [hd, List.append_assoc])
  case stop hd => exact .inl (by rw [hd])

theorem Steps.busy (h : Steps b s b' new) : b'.busy = b.busy ∧ b'.underway = b.underway := by
  unfold EventBus.busy underway
  rcases h.threads with ht | ht
  case inl =>
    rw [ht]
    exact ⟨rfl, rfl⟩
  case inr =>
    rw [ht, List.countP_append, List.flatMap_append]
    exact ⟨rfl, List.append_nil _⟩

theorem busy_set (ht : b'.threads = b.threads.set i program) (hi : b.threads[i]? = some old) :
    b'.busy + (!(changes old).isEmpty).toNat = b.busy + (!(changes program).isEmpty).toNat := by
  unfold busy
  rw [ht]
  exact List.countP_set_add hi

theorem underway_set (ht : b'.threads = b.threads.set i program) (hi : b.threads[i]? = some old)
    (hb : b.busy ≤ 1) (ho : changes old ≠ []) : b'.underway = changes program := by
  have hl := (List.getElem?_eq_some_iff.mp hi).choose
  rw [underway, ht, List.flatMap_set_of_others hl]
  intro n x hn hx
  by_contra hc
  exact hn (List.eq_of_countP_le_one hb hx (by simpa using hc) hi (by simpa using ho))

theorem underway_eq (hi : b.threads[i]? = some old) (hb : b.busy ≤ 1) (ho : changes old ≠ []) :
    b.underway = changes old := by
  have ⟨hl, he⟩ := List.getElem?_eq_some_iff.mp hi
  have same : b.threads = b.threads.set i old := by rw [← he, List.set_getElem_self]
  exact underway_set same hi hb ho

namespace Serial

theorem step (h : Serial b) (hi : b.threads[i]? = some (s :: rest)) (hs : Steps b s b₁ new)
    (ht : b'.threads = b₁.threads.set i (new ++ rest)) (hb : b'.subscriptions = b₁.subscriptions) :
    Serial b' := by
  have ⟨same, underway⟩ := hs.busy
  have one : b₁.busy ≤ 1 := same ▸ h.one
  have hi' : b₁.threads[i]? = some (s :: rest) := by
    have hl := (List.getElem?_eq_some_iff.mp hi).choose
    rcases hs.threads with ht | ht
    case inl => rw [ht, hi]
    case inr => rw [ht, List.getElem?_append_left hl, hi]
  have count := busy_set ht hi'
  cases hc : s.isChange
  case false =>
    have ⟨same, quiet⟩ := hs.unchanged hc
    have quiet : changes (new ++ rest) = changes (s :: rest) := by
      rw [changes_append, quiet, List.nil_append, changes, changes, List.filter_cons_of_neg]
      exact Bool.eq_false_iff.mp hc
    rw [quiet] at count
    refine ⟨by omega, ?_⟩
    have after : b'.underway = b₁.underway := by
      rw [EventBus.underway, ht, List.flatMap_set_of_eq hi' quiet, EventBus.underway]
    rw [hb, same, after, underway]
    exact h.served
  case true =>
    have changing : changes (s :: rest) = s :: changes rest := List.filter_cons_of_pos hc
    have some : changes (s :: rest) ≠ [] := changing ▸ List.cons_ne_nil s _
    have before := (underway_eq hi h.one some).trans changing
    have := Bool.toNat_le (!(changes (new ++ rest)).isEmpty)
    rw [changing, List.isEmpty_cons, Bool.not_false, Bool.toNat_true] at count
    refine ⟨by omega, ?_⟩
    rw [hb, underway_set ht hi' one some, changes_append]
    exact hs.change hc (before ▸ h.served)

theorem served_of_idle (h : Serial b) (hi : b.underway = []) : b.subscriptions.Served := by
  have served := h.served
  rw [hi] at served
  exact served

theorem busy_eq_zero (hi : b.underway = []) : b.busy = 0 := by
  refine List.countP_eq_zero.mpr fun program hp => ?_
  simp [List.flatMap_eq_nil_iff.mp hi program hp]

theorem begins (h : Serial b) (hs : changes (steps c) = [] ∨ b.underway = [] ∧ c ≠ .stop)
    (ha : b.attends c) (hb : b'.subscriptions = b.subscriptions)
    (quiet : changes (steps c) = [] → b'.busy = b.busy ∧ b'.underway = b.underway)
    (idle : b.underway = [] → b'.busy ≤ 1 ∧ b'.underway = changes (steps c)) : Serial b' := by
  rcases hs with hq | ⟨hi, stop⟩
  case inl =>
    have ⟨busy, underway⟩ := quiet hq
    exact ⟨busy ▸ h.one, by rw [hb, underway]; exact h.served⟩
  case inr =>
    have ⟨busy, underway⟩ := idle hi
    refine ⟨busy, ?_⟩
    rw [hb, underway]
    exact steps_servedAlong c (h.served_of_idle hi) stop ha

theorem call (h : Serial b) (hs : changes (steps c) = [] ∨ b.underway = [] ∧ c ≠ .stop)
    (ha : b.attends c) : Serial { b with calls := b.calls ++ [steps c] } := by
  have busy : EventBus.busy { b with calls := b.calls ++ [steps c] } =
      b.busy + (!(changes (steps c)).isEmpty).toNat := by
    simp only [EventBus.busy, threads, List.countP_append, List.countP_singleton]
    cases (changes (steps c)).isEmpty <;> simp
    omega
  refine h.begins hs ha rfl (fun quiet => ⟨?_, ?_⟩) fun idle => ⟨?_, ?_⟩
  · rw [busy, quiet]
    rfl
  · simp [underway, threads, quiet]
  · have := Bool.toNat_le (!(changes (steps c)).isEmpty)
    rw [busy, busy_eq_zero idle]
    omega
  · have ⟨calls, dispatchers⟩ := List.append_eq_nil_iff.mp (List.flatMap_append.symm.trans idle)
    simp only [underway, threads, List.flatMap_append, calls, dispatchers]
    simp

theorem nest (h : Serial b) (hs : changes (steps c) = [] ∨ b.underway = [] ∧ c ≠ .stop)
    (ha : b.attends c) (hd : b.dispatchers[d]? = some old) :
    Serial { b with dispatchers := b.dispatchers.set d (steps c ++ old) } := by
  have hi : b.threads[b.calls.length + d]? = some old := by
    rw [threads, List.getElem?_append_right (Nat.le_add_right ..), Nat.add_sub_cancel_left, hd]
  have ht : EventBus.threads { b with dispatchers := b.dispatchers.set d (steps c ++ old) } =
      b.threads.set (b.calls.length + d) (steps c ++ old) := by
    rw [threads, threads, List.set_append_right _ _ (Nat.le_add_right ..), Nat.add_sub_cancel_left]
  have count := busy_set ht hi
  refine h.begins hs ha rfl (fun quiet => ?_) fun idle => ?_
  · have same : changes (steps c ++ old) = changes old := by
      rw [changes_append, quiet, List.nil_append]
    rw [same] at count
    refine ⟨by omega, ?_⟩
    rw [underway, ht, List.flatMap_set_of_eq hi same, underway]
  · have none (n : Nat) (x : List BusStep) (hn : b.threads[n]? = some x) : changes x = [] :=
      List.flatMap_eq_nil_iff.mp idle x (List.mem_of_getElem? hn)
    have := Bool.toNat_le (!(changes (steps c ++ old)).isEmpty)
    rw [busy_eq_zero idle] at count
    refine ⟨by omega, ?_⟩
    rw [underway, ht, List.flatMap_set_of_others (List.getElem?_eq_some_iff.mp hi).choose,
      changes_append, none _ old hi, List.append_nil]
    exact fun n x _ hx => none n x hx

theorem next (h : Serial b) (hq : b.isSequential a) (ha : b.isAttended a)
    (hn : b.next a = some b') : Serial b' := by
  cases next_acts hn
  case call c =>
    exact h.call (by simpa [isSequential] using hq) ha
  case nest d old c hd _ =>
    exact h.nest (by simpa [isSequential] using hq) ha hd
  case resume k s rest b₁ new hk hs =>
    have hl := (List.getElem?_eq_some_iff.mp hk).choose
    refine h.step ((List.getElem?_append_left hl).trans hk) hs ?_ rfl
    have hl' : k < b₁.calls.length := hs.calls ▸ hl
    exact (List.set_append_left _ _ hl').symm
  case dispatch d s rest b₁ new outcome hd hs =>
    have hi : b.threads[b.calls.length + d]? = some (s :: rest) := by
      rw [threads, List.getElem?_append_right (Nat.le_add_right ..), Nat.add_sub_cancel_left, hd]
    refine h.step hi hs ?_ rfl
    rw [threads, threads, ← hs.calls, List.set_append_right _ _ (Nat.le_add_right ..),
      Nat.add_sub_cancel_left]

theorem initial (limit : Nat) : Serial { queueLimit := limit } where
  one := Nat.zero_le _
  served := nofun

end Serial

theorem subscribers_served
    (h : Runs (fun b a => b.isSequential a ∧ b.isAttended a) { queueLimit := limit } b)
    (hi : b.initialized) (hs : b.subscribers ≠ []) :
    b.underway.head? = some .start ∨
      b.running ∧ ∃ d, b.dispatcher = some d ∧
        ∃ program, b.dispatchers[d]? = some program ∧ program ≠ [] := by
  have live : Live b := h.invariant (fun _ _ _ _ hn hl => hl.next hn) (.initial limit)
  have serial : Serial b :=
    h.invariant (fun _ _ _ ⟨hs, ha⟩ hn h => h.next hs ha hn) (.initial limit)
  have served := serial.served
  generalize b.underway = rest at served
  cases rest
  case nil =>
    have running := served hi hs
    exact .inr ⟨running, live.held running⟩
  case cons s rest =>
    rcases served.1 with served | rfl
    case inl =>
      have running := served hi hs
      exact .inr ⟨running, live.held running⟩
    case inr => exact .inl rfl

def attendedRun (b : EventBus) (a : Action) : Bool :=
  b.isSequential a && b.isAttended a

-- The client is shut down and initialised again, with a handler both times.
theorem subscribers_served_again :
    ∃ b, Runs (fun b a => b.isSequential a ∧ b.isAttended a) {} b ∧ b.initialized ∧
      b.subscribers = [⟨2, 0xffffffff⟩] ∧ b.dispatchers = [[], [.wait]] ∧ b.underway = [] ∧
      (b.underway.head? = some .start ∨ b.running ∧ ∃ d, b.dispatcher = some d ∧
        ∃ program, b.dispatchers[d]? = some program ∧ program ≠ []) := by
  have ⟨b, h, initialized, subscribers, dispatchers, underway⟩ : ∃ b,
      Runs (fun b a => b.isSequential a ∧ b.isAttended a) {} b ∧ b.initialized ∧
        b.subscribers = [⟨2, 0xffffffff⟩] ∧ b.dispatchers = [[], [.wait]] ∧ b.underway = [] :=
    Reach.exists_of_guarded (q := attendedRun) (fun _ _ hq => Bool.and_eq_true_iff.mp hq)
      (List.flatten [[.call (.initialise 10 (some 0xffffffff) true)],
        List.replicate 6 (.resume 0), [.call .shutdown], List.replicate 3 (.resume 1),
        List.replicate 4 (.dispatch 0 .returns),
        [.resume 1, .resume 1, .dispatch 0 .returns, .resume 1,
          .call (.initialise 10 (some 0xffffffff) true)],
        List.replicate 7 (.resume 2)]) (by decide +kernel)
  have served := subscribers_served h initialized (by simp [subscribers])
  exact ⟨b, h, initialized, subscribers, dispatchers, underway, served⟩

-- A subscriber stays after a shutdown, and the client is initialised without a handler: its events
-- are queued, and nobody takes them.
theorem subscriber_not_served :
    ∃ b, Runs (fun b a => b.isSequential a) {} b ∧ b.initialized ∧
      b.subscribers = [⟨1, 0xffffffff⟩] ∧ b.underway = [] ∧ b.running = false ∧
      b.dispatcher = none ∧ b.dispatchers = [[]] ∧
      b.queue.map (·.event) = [{ type := .operationStarted }] :=
  Reach.exists_of_guarded (fun _ _ hq => hq) (List.flatten [[.call (.initialise 10 none true)],
    List.replicate 3 (.resume 0),
    [.call (.subscribe (some 0xffffffff)), .resume 1, .resume 1, .call .shutdown],
    List.replicate 3 (.resume 2), List.replicate 4 (.dispatch 0 .returns),
    [.resume 2, .resume 2, .dispatch 0 .returns, .resume 2, .call (.initialise 10 none true)],
    List.replicate 3 (.resume 3),
    [.call (.publish { type := .operationStarted }), .resume 4, .resume 4]]) (by decide +kernel)

end EventBus

import LibAdb.Machine.Registry

-- The tasks that wait for the looper, and what their transports have gone through.

structure Link.Keeps (l l' : Link) : Prop where
  kicked  : l.kicked → l'.kicked
  started : l.started → l'.started
  stopped : l.stopped → l'.stopped

theorem Link.Keeps.refl : Keeps l l :=
  ⟨id, id, id⟩

theorem Link.Advances.keeps (h : Link.Advances l l') : Link.Keeps l l' where
  kicked    := h.kicked
  started s := h.started ▸ s
  stopped   := h.stopped

namespace Server

variable {v v' v₁ v₂ : Server} {a : Action} {t : Tid} {i : Nat} {d : Device} {os : Os}

-- No transport comes back, and none forgets what has happened to it.
structure Retains (v v' : Server) : Prop where
  next : v.links.next ≤ v'.links.next
  link : ∀ t < v.links.next, ∀ l', v'.link t = some l' → ∃ l, v.link t = some l ∧ l.Keeps l'

theorem Retains.of_links (h : v'.links = v.links) : v.Retains v' where
  next          := Nat.le_of_eq (by rw [h])
  link t _ l hl := ⟨l, by rwa [Server.link, ← h], .refl⟩

theorem Signals.retains (h : v.Signals t v') : v.Retains v' where
  next := Nat.le_of_eq h.next.symm
  link u _ l' hl' := by
    by_cases hu : u = t
    case neg => exact ⟨l', h.other u hu ▸ hl', .refl⟩
    case pos =>
      subst hu
      cases hl : v.link u
      case none => cases (h.absent hl).symm.trans hl'
      case some l =>
        have ⟨l₁, hl₁, adv⟩ := h.present l hl
        cases hl₁.symm.trans hl'
        exact ⟨l, rfl, adv.keeps⟩

theorem Informs.retains (h : v.Informs v') : v.Retains v' :=
  have ⟨_, h⟩ := h
  { h.retains with }

theorem registerTransport_retains : v.Retains (v.registerTransport t) where
  next := Nat.le_of_eq (by rw [links_registerTransport]; rfl)
  link u _ l' hl' := by
    simp only [Server.link, links_registerTransport, Store.get_modify] at hl'
    split at hl'
    case isTrue hu =>
      subst hu
      obtain ⟨l, hl, he⟩ := Option.map_eq_some_iff.mp hl'
      subst he
      exact ⟨l, hl, id, fun _ => rfl, id⟩
    case isFalse => exact ⟨l', hl', .refl⟩

theorem unregisterTransport_retains : v.Retains (v.unregisterTransport t) where
  next := Nat.le_refl _
  link u _ l' hl' := by
    simp only [Server.link, unregisterTransport, setConnectionEstablished, Store.get_free] at hl'
    split at hl'
    case isTrue => cases hl'
    case isFalse => exact ⟨l', hl', .refl⟩

theorem connectDevice_retains (h : ¬v.registered serial) :
    v.Retains (v.connectDevice i d (some serial)) := by
  rw [connectDevice_of_not_registered h]
  refine ⟨Nat.le_succ _, fun u hu l' hl' => ?_⟩
  simp only [link, modifyDevice, post, Store.get_alloc, if_neg (Nat.ne_of_lt hu)] at hl'
  exact ⟨l', hl', .refl⟩

theorem handleError_retains : v.Retains (v.handleError t) := by
  have hs := (stop_signals (v := v.handleOffline t) (t := t)).retains
  rw [handleOffline_frame] at hs
  simp only [handleError, transportDestroy]
  rw [handleOffline_frame]
  split <;> exact { hs with }

theorem connect_frame : v.connect address = { v with devices := (v.connect address).devices } := by
  unfold connect
  split <;> rfl

theorem Moves.retains (m : v.Moves a v') : v.Retains v' := by
  by_cases ha : a.isAside
  case pos =>
    have ⟨_, links, _, _⟩ := m.aside ha
    exact .of_links links
  case neg =>
    cases m
    case run task rest os h hr =>
      cases task
      case registerTransport =>
        exact { registerTransport_retains (v := { v with tasks := rest }) with }
      case handlePacket =>
        rw [runTask, handlePacket_frame]
        exact .of_links rfl
      case handleError => exact { handleError_retains (v := { v with tasks := rest }) with }
      case unregisterTransport =>
        exact { unregisterTransport_retains (v := { v with tasks := rest }) with }
      case startSession => exact .of_links rfl
    case fail h => exact (reportError_signals (started_of_running h)).retains
    case kick => exact kickTransport_signals.retains
    case connect =>
      rw [connect_frame]
      exact .of_links rfl
    case connectDevice i d result hd ht =>
      cases result
      case none => exact (finishConnect_informs (o := none)).retains
      case some serial =>
        by_cases hr : v.registered serial
        case pos =>
          rw [connectDevice_of_registered hr]
          exact finishConnect_informs.retains
        case neg => exact connectDevice_retains hr
    case waitForConnection h => exact (waitForConnection_informs h).retains
    case finishClientConnect h => exact (finishClientConnect_informs h).retains
    case close => exact closeDevice_informs.retains
    all_goals exact absurd rfl ha

-- The error of a connection is reported when it has run. The transport is deleted after it was kicked
-- and its connection was stopped.
def Timely (v : Server) : LooperTask → Prop
  | .handleError t => t < v.links.next ∧ ∀ l, v.link t = some l → l.started
  | .unregisterTransport t =>
    t < v.links.next ∧ ∀ l, v.link t = some l → l.kicked ∧ l.started ∧ l.stopped
  | _ => True

theorem Retains.timely (h : v.Retains v') (k : v.Timely task) : v'.Timely task := by
  cases task
  case handleError t =>
    refine ⟨Nat.lt_of_lt_of_le k.left h.next, fun l' hl' => ?_⟩
    have ⟨l, hl, keeps⟩ := h.link t k.left l' hl'
    exact keeps.started (k.right l hl)
  case unregisterTransport t =>
    refine ⟨Nat.lt_of_lt_of_le k.left h.next, fun l' hl' => ?_⟩
    have ⟨l, hl, keeps⟩ := h.link t k.left l' hl'
    have ⟨hk, hs, hp⟩ := k.right l hl
    exact ⟨keeps.kicked hk, keeps.started hs, keeps.stopped hp⟩
  all_goals trivial

theorem link_reportError : (v.reportError t).link t = (v.link t).map ({ · with failed := true }) := by
  unfold reportError
  split
  case isTrue => exact link_modifyLink.trans (if_pos rfl)
  case isFalse h =>
    cases hl : v.link t
    case none => rfl
    case some l =>
      have : l.failed := by simpa [hl] using h
      simp [← this]

theorem link_stop : (v.stop t).link t =
    (v.link t).map fun l => if l.running then { l with stopped := true, failed := true } else l := by
  unfold stop
  cases hl : v.link t
  case none => simp [hl]
  case some l =>
    by_cases hr : l.running
    case pos => simp [hr, link_reportError, link_modifyLink, hl]
    case neg => simp [hr, hl]

theorem link_handleError_of_ne (hu : u ≠ t) : (v.handleError t).link u = v.link u := by
  have hs := (stop_signals (v := v.handleOffline t) (t := t)).other u hu
  have ho : (v.handleOffline t).link u = v.link u := by rw [handleOffline_frame]; rfl
  simp only [handleError, transportDestroy]
  split <;> exact hs.trans ho

theorem stopped_of_stop (hl : (v.stop t).link t = some l) (hs : l.started) : l.stopped := by
  rw [link_stop] at hl
  have ⟨l₀, _, he⟩ := Option.map_eq_some_iff.mp hl
  grind [Link.running]

end Server

inductive Server.Posted (v : Server) (a : Action) (v' : Server) : LooperTask → Prop
  | register : v.Posted a v' (.registerTransport t)
  | packet : v.Posted a v' (.handlePacket t p)
  | error (h : v'.Timely (.handleError t)) : v.Posted a v' (.handleError t)
  | unregister (ha : a = .run os) (ht : v.tasks = .handleError t :: rest)
    (h : v'.Timely (.unregisterTransport t)) : v.Posted a v' (.unregisterTransport t)
  | session (ha : a = .postSession n) (hs : v.starting[n]? = some (t, service)) :
    v.Posted a v' (.startSession t service)

-- The looper takes its tasks from the front of the queue, and they are posted at its end.
def Server.Queues (v : Server) (a : Action) (v' : Server) : Prop :=
  ∃ kept posted, v'.tasks = kept ++ posted ∧ kept <:+ v.tasks ∧ ∀ task ∈ posted, v.Posted a v' task

namespace Server

variable {v v' : Server} {a : Action} {t : Tid} {i : Nat} {d : Device} {os : Os}

theorem Posted.timely : v.Posted a v' task → v'.Timely task
  | .error h | .unregister _ _ h => h
  | .register | .packet | .session .. => trivial

theorem Queues.of_tasks (h : v'.tasks = v.tasks) : v.Queues a v' :=
  ⟨v.tasks, [], by simp [h], List.suffix_rfl, nofun⟩

theorem Queues.post (h : v.Posted a (v.post task) task) : v.Queues a (v.post task) :=
  ⟨v.tasks, [task], rfl, List.suffix_rfl, by simpa using h⟩

theorem Signals.posts (h : v.Signals t v') : ∃ posted, v'.tasks = v.tasks ++ posted ∧
    ∀ task ∈ posted, task = .handleError t ∧ v'.Timely task := by
  have ⟨posted, ht, hp⟩ := h.tasks
  refine ⟨posted, ht, fun task hm => ?_⟩
  have ⟨he, hs⟩ := hp task hm
  have ⟨l, hl, hs⟩ := (Option.any_eq_true _ _).mp hs
  subst he
  refine ⟨rfl, h.next ▸ Store.lt_next hl, fun l' hl' => ?_⟩
  have ⟨l₁, hl₁, adv⟩ := h.present l hl
  cases hl₁.symm.trans hl'
  rwa [adv.started]

theorem Queues.of_errors (h : ∃ posted, v'.tasks = v.tasks ++ posted ∧
    ∀ task ∈ posted, task = .handleError t ∧ v'.Timely task) : v.Queues a v' := by
  have ⟨posted, ht, hp⟩ := h
  refine ⟨v.tasks, posted, ht, List.suffix_rfl, fun task hm => ?_⟩
  have ⟨he, hk⟩ := hp task hm
  subst he
  exact .error hk

theorem Signals.queues (h : v.Signals t v') : v.Queues a v' :=
  .of_errors h.posts

theorem Informs.queues (h : v.Informs v') : v.Queues a v' := by
  have ⟨_, h⟩ := h
  exact .of_errors h.posts

theorem transportDestroy_posts (ht : v.Timely (.handleError t)) :
    ∃ posted, (v.transportDestroy t).tasks = v.tasks ++ posted ∧ ∀ task ∈ posted,
      (task = .handleError t ∨ task = .unregisterTransport t) ∧
        (v.transportDestroy t).Timely task := by
  have hs := stop_signals (v := v) (t := t)
  obtain ⟨posted, tasks, hp⟩ := hs.posts
  simp only [transportDestroy]
  split
  case isFalse =>
    refine ⟨posted, tasks, fun task hm => ?_⟩
    obtain ⟨he, hk⟩ := hp task hm
    exact ⟨.inl he, (Retains.of_links rfl).timely hk⟩
  case isTrue hk =>
    refine ⟨posted ++ [.unregisterTransport t], by simp [post, tasks], fun task hm => ?_⟩
    rcases List.mem_append.mp hm with hm | hm
    · obtain ⟨he, hk⟩ := hp task hm
      exact ⟨.inl he, (Retains.of_links rfl).timely hk⟩
    · cases List.mem_singleton.mp hm
      obtain ⟨hn, started⟩ := hs.retains.timely ht
      refine ⟨.inr rfl, hn, fun l hl => ?_⟩
      replace hl : (v.stop t).link t = some l := hl
      have hk : l.kicked := by simpa [hl] using hk
      exact ⟨hk, started l hl, stopped_of_stop hl (started l hl)⟩

theorem handleError_queues (ht : v.tasks = .handleError t :: rest)
    (k : v.Timely (.handleError t)) :
    v.Queues (.run os) (({ v with tasks := rest } : Server).handleError t) := by
  have links : (({ v with tasks := rest } : Server).handleOffline t).links = v.links := by
    rw [handleOffline_frame]
  have tasks : (({ v with tasks := rest } : Server).handleOffline t).tasks = rest := by
    rw [handleOffline_frame]
  have ⟨posted, he, hp⟩ := transportDestroy_posts ((Retains.of_links links).timely k)
  rw [tasks] at he
  refine ⟨rest, posted, he, ht ▸ List.suffix_cons _ _, fun task hm => ?_⟩
  have ⟨hk, timely⟩ := hp task hm
  rcases hk with rfl | rfl
  · exact .error timely
  · exact .unregister rfl ht timely

theorem Moves.queues (m : v.Moves a v') (k : ∀ task ∈ v.tasks, v.Timely task) : v.Queues a v' := by
  cases m
  case run task rest os h hr =>
    have suffix : rest <:+ v.tasks := h ▸ List.suffix_cons _ _
    have tail {v'} (he : v'.tasks = rest) : v.Queues (.run os) v' :=
      ⟨rest, [], by simp [he], suffix, nofun⟩
    cases task
    case registerTransport t =>
      simp only [runTask, registerTransport]
      split <;> exact tail rfl
    case handlePacket t p =>
      rw [runTask, handlePacket_frame]
      exact tail rfl
    case handleError t => exact handleError_queues h (k _ (h ▸ .head _))
    case unregisterTransport | startSession => exact tail rfl
  case event | accept | startSession => exact .of_tasks rfl
  case read => exact .post .packet
  case postSession hs =>
    refine ⟨v.tasks, [_], rfl, List.suffix_rfl, fun task hm => ?_⟩
    cases List.mem_singleton.mp hm
    exact .session rfl hs
  case fail h => exact (reportError_signals (started_of_running h)).queues
  case kick => exact kickTransport_signals.queues
  case install => exact .of_tasks (by rw [installListener_relists.eq])
  case remove => exact .of_tasks (by rw [(removeListener_relists (o := none)).eq])
  case removeAll => exact .of_tasks (by rw [(removeAllListeners_relists (o := none)).eq])
  case connect => exact .of_tasks (by rw [connect_frame])
  case connectDevice i d result hd ht =>
    cases result
    case none => exact (finishConnect_informs (o := none)).queues
    case some serial =>
      by_cases hr : v.registered serial
      case pos =>
        rw [connectDevice_of_registered hr]
        exact finishConnect_informs.queues
      case neg =>
        rw [connectDevice_of_not_registered hr]
        refine ⟨v.tasks, [.registerTransport v.links.next], rfl, List.suffix_rfl, ?_⟩
        simpa using .register
  case waitForConnection h => exact (waitForConnection_informs h).queues
  case finishClientConnect h => exact (finishClientConnect_informs h).queues
  case close => exact closeDevice_informs.queues

theorem Moves.timely (m : v.Moves a v') (k : ∀ task ∈ v.tasks, v.Timely task) :
    ∀ task ∈ v'.tasks, v'.Timely task := by
  have ⟨kept, posted, tasks, suffix, hp⟩ := m.queues k
  intro task hm
  rw [tasks] at hm
  rcases List.mem_append.mp hm with hm | hm
  · exact m.retains.timely (k task (suffix.subset hm))
  · exact (hp task hm).timely

theorem Reachable.timely (h : Reachable P v) : ∀ task ∈ v.tasks, v.Timely task := by
  refine Reach.invariant (I := fun v : Server => ∀ task ∈ v.tasks, v.Timely task) ?_ h nofun
  exact fun v a v' _ hs k => (next_moves hs).right.timely k

end Server

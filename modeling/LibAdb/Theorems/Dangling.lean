import LibAdb.Machine.Binding
import LibAdb.Machine.Listeners
import LibAdb.Theorems.Offline

-- What refers to a transport that has been deleted.

-- No session is started on a transport by a task behind the one that deletes it.
def LooperTask.Before (x y : LooperTask) : Prop :=
  ∀ t service, x = .unregisterTransport t → y ≠ .startSession t service

namespace Server

variable {v v' : Server} {a : Action} {t : Tid} {r : Ref} {c : ASocket} {os : Os}

def Gone (v : Server) (t : Tid) : Prop :=
  t < v.links.next ∧ v.link t = none

structure Unreferenced (v : Server) (t : Tid) : Prop where
  list      : ∀ r ∈ v.looper.localSocketList, ∀ c, v.looper.sock r = some c → c.transport ≠ some t
  closing   : ∀ r ∈ v.looper.localSocketClosingList, ∀ c, v.looper.sock r = some c →
    c.transport ≠ some t
  listeners : ∀ l ∈ v.listeners, l.transport ≠ some t
  tasks     : ∀ service, .startSession t service ∉ v.tasks

def Offline (v : Server) (t : Tid) : Prop :=
  (v.looper.transports t).connectionState = .offline

-- The steps that can leave a reference behind: the transport goes offline without its sockets being
-- closed, or it comes back although it is about to be deleted; a session or a listener is made for a
-- transport that is offline already, or a session for one that was deleted since it was looked up; or the transport is deleted while a client has not taken the
-- rest of its data yet.
def Dangles (v : Server) : Action → Prop
  | .run os => (∃ t, v.Disowns t (.run os) ∧ ¬v.Offline t) ∨
    match v.tasks with
    | .handlePacket t p :: rest => (p.kind = some .cnxn ∨ p.kind = some .auth) ∧
        (.unregisterTransport t ∈ rest ∨ v.link t = none)
    | .startSession t _ :: _ => v.Offline t
    | .unregisterTransport t :: _ =>
      ∃ r c, v.looper.sock r = some c ∧ c.closing ∧ c.transport = some t
    | _ => False
  | .installListener _ _ t _ _ => v.Offline t
  | .postSession n => ∃ t service, v.starting[n]? = some (t, service) ∧
      (.unregisterTransport t ∈ v.tasks ∨ v.link t = none)
  | _ => False

theorem gone_iff : v.Gone t ↔ t < v.links.next ∧ ∀ serial, v.hasSerial serial t = false := by
  refine and_congr_right fun _ => ?_
  cases hl : v.link t
  case none => simp [hasSerial, hl]
  case some l =>
    refine iff_of_false (Option.some_ne_none l) fun h => ?_
    have := h l.serial
    simp [hasSerial, hl] at this

theorem Registers.gone (h : v.Registers a v') (hg : v'.Gone t) :
    v.Gone t ∨ ∃ rest os, v.tasks = .unregisterTransport t :: rest ∧ a = .run os := by
  rw [gone_iff] at hg ⊢
  have ⟨hlt, hs⟩ := hg
  cases h
  case same h =>
    rw [h.next] at hlt
    exact .inl ⟨hlt, fun s => h.serial s t ▸ hs s⟩
  case enroll serial _ _ h =>
    simp only [h.serial] at hs
    rw [h.next] at hlt
    by_cases ht : t = v.links.next
    case pos => simp [ht] at hs
    case neg =>
      exact .inl ⟨Nat.lt_of_le_of_ne (Nat.le_of_lt_succ hlt) ht, by simpa [ht] using hs⟩
  case admitted h =>
    rw [h.next] at hlt
    exact .inl ⟨hlt, fun s => h.serial s t ▸ hs s⟩
  case delete rest t' os ht h =>
    by_cases he : t = t'
    case pos => exact .inr ⟨rest, os, he ▸ ht, rfl⟩
    case neg =>
      rw [h.next] at hlt
      refine .inl ⟨hlt, fun s => Bool.eq_false_iff.mpr fun hst => ?_⟩
      exact Bool.false_ne_true ((hs s).symm.trans ((h.serial s t).mpr ⟨he, hst⟩))

-- A transport was offline before, or it goes offline with its sockets closed and its listeners told.
theorem offline_of_next (w : v.looper.WF) (hs : v.next a = some v') (hn : ¬v.Dangles a)
    (after : v'.Offline t) :
    v.Offline t ∧ (v'.looper.transports t).online = (v.looper.transports t).online ∨
      v.CleanedUp t v' := by
  rcases link_next (t := t) w hs with he | hr
  · exact .inl ⟨(congrArg Prod.fst he :).symm.trans after, (congrArg (·.2.1) he :)⟩
  · cases hr
    case error rest os ht =>
      by_cases before : v.Offline t
      case neg =>
        have k := handleOffline_cleans_up (v := { v with tasks := rest }) w before
        exact .inr (transportDestroy_cleaned_up { k with })
      case pos =>
        refine .inl ⟨before, ?_⟩
        have ⟨kicked, hk⟩ := looper_handleError (v := { v with tasks := rest }) (t := t)
        have before : (v.looper.transports t).connectionState = .offline := before
        cases kicked <;> simp [hk, Looper.handleError, Looper.handleOffline, before, Looper.setTransport]
    case packet rest p os ht hk =>
      rcases handlePacket_offline (v := { v with tasks := rest }) hk after with he | ⟨hk, hu, hp⟩
      · rw [he] at after ⊢
        exact .inl ⟨after, rfl⟩
      · have before : v.Offline t := Classical.byContradiction fun h =>
          hn (.inl ⟨t, ⟨p, rest, ht, hk, hu, hp⟩, h⟩)
        simp only [handlePacket, hk, handleAuth_disowns (v := { v with tasks := rest }) hu hp]
        exact .inl ⟨before, by simp [Looper.setTransport]⟩

structure Tidy (v : Server) : Prop where
  retired   : ∀ t, .unregisterTransport t ∈ v.tasks ∨ v.Gone t → v.Offline t
  flag      : ∀ t, v.Offline t → (v.looper.transports t).online = false
  sockets   : ∀ t, v.Offline t → ∀ r c, v.looper.sock r = some c → c.ops.isLocal →
    c.transport = some t → c.closing
  listeners : ∀ t, v.Offline t → ∀ l ∈ v.listeners, l.transport ≠ some t
  order     : v.tasks.Pairwise LooperTask.Before
  unbound   : ∀ t, v.Gone t → ∀ r c, v.looper.sock r = some c → c.ops.isLocal → c.transport ≠ some t
  sessions  : ∀ t, v.Gone t → ∀ service, .startSession t service ∉ v.tasks

namespace Tidy

theorem held (k : v.Tidy) (w : v.looper.WF) (hs : v.next a = some v') (hn : ¬v.Dangles a)
    (off : v.Offline t) (hr : v'.looper.sock r = some c) (l : c.ops.isLocal)
    (ht : c.transport = some t) : v.looper.HeldBefore t r c := by
  rcases looper_next hs with he | ⟨b, hb, hp⟩
  · exact ⟨c, he ▸ hr, l, ht, id⟩
  · refine Looper.held_of_next w hb ?_ hr l ht
    rintro (online | ⟨p, os, rfl, online⟩ | ⟨service, rfl⟩)
    · have off : (v.looper.transports t).connectionState = .offline := off
      simp [off, connectionStateIsOnline] at online
    · simp [k.flag t off] at online
    · cases hp
      case session h => exact hn (.inr (by simpa [h] using off))
      case listener l hl ht => exact k.listeners t off l hl ht
      case event h => cases h

theorem flag_next (k : v.Tidy) (w : v.looper.WF) (hs : v.next a = some v') (hn : ¬v.Dangles a)
    (off : v'.Offline t) : (v'.looper.transports t).online = false := by
  rcases offline_of_next w hs hn off with ⟨before, he⟩ | clean
  · rw [he, k.flag t before]
  · exact clean.online

theorem sockets_next (k : v.Tidy) (w : v.looper.WF) (w' : v'.looper.WF) (hs : v.next a = some v')
    (hn : ¬v.Dangles a) (off : v'.Offline t) (hr : v'.looper.sock r = some c) (l : c.ops.isLocal)
    (ht : c.transport = some t) : c.closing := by
  by_contra hc
  have hc := Bool.eq_false_iff.mpr hc
  rcases offline_of_next w hs hn off with ⟨before, _⟩ | clean
  · have ⟨c₀, hr₀, l₀, ht₀, o⟩ := k.held w hs hn before hr l ht
    exact Bool.false_ne_true ((o hc).symm.trans (k.sockets t before r c₀ hr₀ l₀ ht₀))
  · have hm := (w'.list r).mpr ⟨c, hr, l, hc⟩
    have := (Looper.belongs_iff hr).mpr (.inl ht)
    exact Bool.false_ne_true ((clean.sockets r hm).symm.trans this)

theorem listeners_next (k : v.Tidy) (w : v.looper.WF) (sub : v'.Subscribed)
    (hs : v.next a = some v') (hn : ¬v.Dangles a) (off : v'.Offline t) :
    ∀ l ∈ v'.listeners, l.transport ≠ some t := by
  intro l hl ht
  rcases offline_of_next w hs hn off with ⟨before, _⟩ | clean
  · rcases (next_moves hs).right.listens.refers l hl with h | ⟨l₀, hl₀, h⟩
    · cases a
      case installListener =>
        cases h.symm.trans ht
        exact hn before
      all_goals cases h.symm.trans ht
    · exact k.listeners t before l₀ hl₀ (h.trans ht)
  · have := sub l hl t ht
    simp [clean.cleared] at this

theorem stays_offline (k : v.Tidy) (w : v.looper.WF) (hs : v.next a = some v') (hn : ¬v.Dangles a)
    (h : .unregisterTransport t ∈ v.tasks ∨ v.Gone t) : v'.Offline t := by
  have off := k.retired t h
  rcases link_next (t := t) w hs with he | hr
  · exact (congrArg Prod.fst he :).trans off
  · cases hr
    case error rest os ht => exact state_handleError (v := { v with tasks := rest }) w
    case packet rest p os ht hk =>
      refine absurd (.inr ?_) hn
      simp only [ht]
      refine ⟨hk, ?_⟩
      simpa [ht] using h.imp_right And.right

theorem retired_next (k : v.Tidy) (w : v.looper.WF) (queues : v.Queues a v')
    (hs : v.next a = some v') (hn : ¬v.Dangles a)
    (h : .unregisterTransport t ∈ v'.tasks ∨ v'.Gone t) : v'.Offline t := by
  rcases h with h | h
  · have ⟨kept, posted, tasks, suffix, hp⟩ := queues
    rw [tasks] at h
    rcases List.mem_append.mp h with h | h
    · exact k.stays_offline w hs hn (.inl (suffix.subset h))
    · cases hp _ h
      case unregister os rest ha ht _ =>
        subst ha
        rw [next_run hs ht]
        exact state_handleError (v := { v with tasks := rest }) w
  · rcases (next_moves hs).right.registers.gone h with h | ⟨rest, os, ht, _⟩
    · exact k.stays_offline w hs hn (.inr h)
    · exact k.stays_offline w hs hn (.inl (ht ▸ .head _))

theorem order_next (k : v.Tidy) (queues : v.Queues a v') (hn : ¬v.Dangles a) :
    v'.tasks.Pairwise LooperTask.Before := by
  have ⟨kept, posted, tasks, suffix, hp⟩ := queues
  -- Only the start of a session can come too late.
  have late {x y} (hx : x ∈ v.tasks ∨ v.Posted a v' x) (hy : v.Posted a v' y) : x.Before y := by
    rintro t service rfl rfl
    cases hy
    case session n ha hs =>
      subst ha
      rcases hx with hx | hx
      · exact hn ⟨t, service, hs, .inl hx⟩
      · cases hx
        case unregister ha _ _ => cases ha
  rw [tasks, List.pairwise_append]
  refine ⟨k.order.sublist suffix.sublist, ?_, fun x hx y hy => ?_⟩
  · exact List.pairwise_of_forall_mem_list fun x hx y hy => late (.inr (hp x hx)) (hp y hy)
  · exact late (.inl (suffix.subset hx)) (hp y hy)

theorem unbound_next (k : v.Tidy) (w : v.looper.WF) (hs : v.next a = some v') (hn : ¬v.Dangles a)
    (h : v'.Gone t) (hr : v'.looper.sock r = some c) (l : c.ops.isLocal) : c.transport ≠ some t := by
  intro ht
  rcases (next_moves hs).right.registers.gone h with h | ⟨rest, os, htask, rfl⟩
  · have ⟨c₀, hr₀, l₀, ht₀, _⟩ := k.held w hs hn (k.retired t (.inr h)) hr l ht
    exact k.unbound t h r c₀ hr₀ l₀ ht₀
  · rw [next_run hs htask] at hr
    have closing := k.sockets t (k.retired t (.inl (htask ▸ .head _))) r c hr l ht
    exact hn (.inr (by simpa [htask] using ⟨r, c, hr, closing, ht⟩))

theorem sessions_next (k : v.Tidy) (queues : v.Queues a v') (hs : v.next a = some v')
    (hn : ¬v.Dangles a) (h : v'.Gone t) (service : Bytes) : .startSession t service ∉ v'.tasks := by
  intro hm
  rcases (next_moves hs).right.registers.gone h with h | ⟨rest, os, ht, rfl⟩
  · have ⟨kept, posted, tasks, suffix, hp⟩ := queues
    rw [tasks] at hm
    rcases List.mem_append.mp hm with hm | hm
    · exact k.sessions t h service (suffix.subset hm)
    · cases hp _ hm
      case session n ha looked =>
        subst ha
        exact hn ⟨t, service, looked, .inr h.right⟩
  · have order := k.order
    rw [ht, List.pairwise_cons] at order
    rw [next_run hs ht] at hm
    exact order.left _ hm t service rfl rfl

theorem next (k : v.Tidy) (w : v.looper.WF) (w' : v'.looper.WF) (sub : v'.Subscribed)
    (timely : ∀ task ∈ v.tasks, v.Timely task) (hs : v.next a = some v') (hn : ¬v.Dangles a) :
    v'.Tidy := by
  have queues := (next_moves hs).right.queues timely
  constructor
  case retired => exact fun t => k.retired_next w queues hs hn
  case flag => exact fun t => k.flag_next w hs hn
  case sockets => exact fun t off r c => k.sockets_next w w' hs hn off
  case listeners => exact fun t => k.listeners_next w sub hs hn
  case order => exact k.order_next queues hn
  case unbound => exact fun t h r c => k.unbound_next w hs hn h
  case sessions => exact fun t => k.sessions_next queues hs hn

end Tidy

theorem Reachable.tidy (h : Reachable (fun v a => ¬v.Dangles a) v) : v.Tidy := by
  refine Reach.invariant_under (I := Reachable fun v a => ¬v.Dangles a)
    (fun _ _ _ p hs r => r.tail p hs) (fun v a v' r hn hs k => ?_) h .refl ?_
  · have r' : Reachable (fun v a => ¬v.Dangles a) v' := r.tail hn hs
    exact k.next r.wf r'.wf r'.subscribed r.timely hs hn
  · constructor
    case retired | flag => exact fun _ _ => rfl
    case order => exact .nil
    all_goals simp [Gone, Looper.sock]

theorem gone_unreferenced (h : Reachable (fun v a => ¬v.Dangles a) v) (hg : v.Gone t) :
    v.Unreferenced t := by
  have k := h.tidy
  constructor
  case list =>
    intro r hr c hc
    have ⟨_, hc', l, _⟩ := (h.wf.list r).mp hr
    cases hc.symm.trans hc'
    exact k.unbound t hg r c hc l
  case closing =>
    intro r hr c hc
    have ⟨_, hc', closing⟩ := (h.looper.lists.closing r).mp hr
    cases hc.symm.trans hc'
    exact k.unbound t hg r c hc ((h.wf.sound r c hc).closing closing).right
  case listeners => exact k.listeners t (k.retired t (.inr hg))
  case tasks => exact k.sessions t hg

def isAnchored (v : Server) : Action → Bool
  | .run _ =>
    match v.tasks with
    | .handlePacket t p :: rest => p.kind = some .cnxn && (v.link t).isSome && rest.isEmpty
    | .startSession t _ :: _ => (v.looper.transports t).connectionState ≠ .offline
    | .unregisterTransport _ :: _ =>
      (List.range v.looper.sockets.next).all fun r => (v.looper.sock r).all (!·.closing)
    | _ => true
  | .installListener _ _ t _ _ => (v.looper.transports t).connectionState ≠ .offline
  | .postSession n => v.tasks.isEmpty && (v.starting[n]?).all fun (t, _) => (v.link t).isSome
  | _ => true

theorem not_dangles_of_isAnchored (v a) (h : isAnchored v a) : ¬v.Dangles a := by
  unfold Dangles
  split
  case h_1 os =>
    rintro (⟨t, ⟨p, rest, ht, hk, _⟩, _⟩ | h')
    · simp [isAnchored, ht, hk] at h
    · simp only [isAnchored] at h
      split at h'
      case h_1 ht => simp_all
      case h_2 ht => simp_all [Offline]
      case h_3 ht =>
        have ⟨r, c, hr, closing, _⟩ := h'
        simp only [ht, List.all_eq_true, List.mem_range] at h
        have := h r (Store.lt_next hr)
        simp [hr, closing] at this
      case h_4 => exact h'
  case h_2 => simpa [isAnchored, Offline] using h
  case h_3 =>
    rintro ⟨t, service, hs, hm⟩
    simp only [isAnchored, hs, Option.all_some, Bool.and_eq_true, List.isEmpty_iff] at h
    simp [h.left, Option.isSome_iff_ne_none.mp h.right] at hm
  case h_4 => exact id

-- A device with a forwarded port and two streams is closed.
theorem gone_unreferenced_after_close : ∃ v : Server, v.Gone 0 ∧ v.looper.sockets.next = 2 ∧
    v.nextListener = 1 ∧ v.Unreferenced 0 := by
  have ⟨v, hv, hn, hl, sockets, listener⟩ : ∃ v, Reachable (fun v a => ¬v.Dangles a) v ∧
      v.links.next = 1 ∧ v.link 0 = none ∧ v.looper.sockets.next = 2 ∧ v.nextListener = 1 :=
    Reach.exists_of_guarded not_dangles_of_isAnchored [.connect (ascii "a:1"),
      .connectDevice 0 (some (ascii "a:1")), .run {}, .read 0 .connect, .run {},
      .waitForConnection 0 false, .finishClientConnect 0 false,
      .installListener (ascii "tcp:1") (ascii "tcp:2") 0 false (some (ascii "tcp:1")),
      .acceptListener 0, .startSession 0 (ascii "shell:"), .postSession 0, .run {}, .close 0, .run {},
      .run {}] (by decide +kernel)
  have gone : v.Gone 0 := ⟨by simp [hn], hl⟩
  exact ⟨v, gone, sockets, listener, gone_unreferenced hv gone⟩

-- A device is closed while the client of its stream has not read the last data. The transport is
-- deleted, but the socket in the closing list still has it.
theorem closing_socket_refers_to_deleted : ∃ v : Server, ∃ c, Reachable (fun _ _ => True) v ∧
    v.Gone 0 ∧ v.looper.aborted = none ∧ v.looper.localSocketClosingList = [0] ∧
    v.looper.sock 0 = some c ∧ c.transport = some 0 ∧ ¬v.Unreferenced 0 := by
  have ⟨v, hv, hn, hl, ha, list, c, hc, ht⟩ : ∃ v, Reachable (fun _ _ => True) v ∧
      v.links.next = 1 ∧ v.link 0 = none ∧ v.looper.aborted = none ∧
      v.looper.localSocketClosingList = [0] ∧ ∃ c ∈ v.looper.sock 0, c.transport = some 0 :=
    Reach.exists_of_exec [.connect (ascii "a:1"),
      .connectDevice 0 (some (ascii "a:1")), .run {}, .read 0 .connect, .run {},
      .waitForConnection 0 false, .finishClientConnect 0 false, .startSession 0 (ascii "shell:"),
      .postSession 0, .run {}, .read 0 (.ofCommand .okay 9 1 [] (by decide)), .run {},
      .read 0 (.ofCommand .wrte 9 1 [1, 2, 3] (by decide)), .run { writev := fun _ _ => .again },
      .close 0, .run {}, .run {}] (by decide +kernel)
  refine ⟨v, c, hv, ⟨by simp [hn], hl⟩, ha, list, hc, ht, fun k => ?_⟩
  exact k.closing 0 (by simp [list]) c hc ht

end Server

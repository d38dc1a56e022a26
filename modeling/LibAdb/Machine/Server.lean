import LibAdb.Execution.Server
import LibAdb.Machine.Refinement

-- What the steps of the process do to the registry. The looper of the process makes the steps of the
-- looper alone.

-- The flags of a transport can only be set.
structure Link.Advances (l l' : Link) : Prop where
  serial  : l'.serial = l.serial
  started : l'.started = l.started
  kicked  : l.kicked → l'.kicked
  stopped : l.stopped → l'.stopped
  failed  : l.failed → l'.failed

theorem Link.Advances.refl : Advances l l :=
  ⟨rfl, rfl, id, id, id⟩

theorem Link.Advances.trans (h₁ : Advances l₁ l₂) (h₂ : Advances l₂ l₃) : Advances l₁ l₃ where
  serial  := h₂.serial.trans h₁.serial
  started := h₂.started.trans h₁.started
  kicked  := h₂.kicked ∘ h₁.kicked
  stopped := h₂.stopped ∘ h₁.stopped
  failed  := h₂.failed ∘ h₁.failed

theorem Looper.state_of_token {s : Looper} {p : Apacket} {t : Tid} (hu : (s.transports t).useTls = false)
    (hp : p.arg0 = adbAuthToken) :
    ((s.handleAuth t p o).transports t).connectionState = .authorizing ∨
      ((s.handleAuth t p o).transports t).connectionState = .unauthorized := by
  have sends (s : Looper) : (s.sendAuthPublickey t o).transports = s.transports := by
    unfold Looper.sendAuthPublickey
    split
    case isTrue => rfl
    case isFalse => split <;> rfl
  simp only [Looper.handleAuth, hu, hp, if_true, Looper.sendAuthResponse]
  rw [if_neg Bool.false_ne_true]
  split
  case h_1 =>
    rw [sends]
    simp [Looper.setTransport]
  case h_2 => split <;> simp [Looper.setTransport, Looper.sendPacket, Looper.emit, ATransport.nextKey]

namespace Server

variable {v v' v₁ v₂ : Server} {t u : Tid} {i : Nat} {d : Device} {os : Os} {f : Link → Link}

structure Signals (v : Server) (t : Tid) (v' : Server) : Prop where
  eq      : v' = { v with links := v'.links, tasks := v'.tasks }
  next    : v'.links.next = v.links.next
  other   : ∀ u, u ≠ t → v'.link u = v.link u
  absent  : v.link t = none → v'.link t = none
  present : ∀ l, v.link t = some l → ∃ l', v'.link t = some l' ∧ l.Advances l'
  tasks   : ∃ posted, v'.tasks = v.tasks ++ posted ∧
    ∀ task ∈ posted, task = .handleError t ∧ (v.link t).any (·.started)

namespace Signals

theorem refl : v.Signals t v where
  eq          := rfl
  next        := rfl
  other _ _   := rfl
  absent      := id
  present l h := ⟨l, h, .refl⟩
  tasks       := ⟨[], by simp, by simp⟩

theorem trans (h₁ : v.Signals t v₁) (h₂ : v₁.Signals t v₂) : v.Signals t v₂ where
  eq          := by rw [h₂.eq, h₁.eq]
  next        := h₂.next.trans h₁.next
  other u hu  := (h₂.other u hu).trans (h₁.other u hu)
  absent h    := h₂.absent (h₁.absent h)
  present l h := by
    have ⟨l₁, hl₁, a₁⟩ := h₁.present l h
    have ⟨l₂, hl₂, a₂⟩ := h₂.present l₁ hl₁
    exact ⟨l₂, hl₂, a₁.trans a₂⟩
  tasks := by
    have ⟨p₁, ht₁, hp₁⟩ := h₁.tasks
    have ⟨p₂, ht₂, hp₂⟩ := h₂.tasks
    refine ⟨p₁ ++ p₂, by simp [ht₂, ht₁], fun task hm => ?_⟩
    rcases List.mem_append.mp hm with hm | hm
    · exact hp₁ task hm
    · have ⟨he, hs⟩ := hp₂ task hm
      refine ⟨he, ?_⟩
      have ⟨l₁, hl₁, hs⟩ := (Option.any_eq_true _ _).mp hs
      cases hl : v.link t
      case none => cases (h₁.absent hl).symm.trans hl₁
      case some l =>
        have ⟨l', hl', a⟩ := h₁.present l hl
        cases hl₁.symm.trans hl'
        simpa [← a.started] using hs

end Signals

theorem link_modifyLink : (v.modifyLink t f).link u = if u = t then (v.link t).map f else v.link u :=
  Store.get_modify

theorem modifyLink_signals (h : ∀ l : Link, l.Advances (f l)) : v.Signals t (v.modifyLink t f) where
  eq           := rfl
  next         := rfl
  other u hu   := by rw [link_modifyLink, if_neg hu]
  absent h     := by simp [link_modifyLink, h]
  present l hl := ⟨f l, by simp [link_modifyLink, hl], h l⟩
  tasks        := ⟨[], by simp [modifyLink], by simp⟩

theorem started_of_running (h : (v.link t).any (·.running)) : (v.link t).any (·.started) := by
  have ⟨l, hl, hr⟩ := (Option.any_eq_true _ _).mp h
  simp_all [Link.running]

theorem reportError_signals (h : (v.link t).any (·.started)) : v.Signals t (v.reportError t) := by
  unfold reportError
  split
  case isTrue =>
    have m : v.Signals t (v.modifyLink t ({ · with failed := true })) :=
      modifyLink_signals fun _ => ⟨rfl, rfl, id, id, fun _ => rfl⟩
    exact { m with eq := rfl, tasks := ⟨[.handleError t], rfl, by simpa using h⟩ }
  case isFalse => exact .refl

theorem stop_signals : v.Signals t (v.stop t) := by
  unfold stop
  split
  case isTrue h =>
    have m : v.Signals t (v.modifyLink t ({ · with stopped := true })) :=
      modifyLink_signals fun _ => ⟨rfl, rfl, id, fun _ => rfl, id⟩
    have hs := started_of_running h
    exact m.trans <| reportError_signals (by simpa [link_modifyLink, Option.any_map] using hs)
  case isFalse => exact .refl

theorem kick_signals : v.Signals t (v.kick t) := by
  unfold kick
  split
  case isTrue =>
    have m : v.Signals t (v.modifyLink t ({ · with kicked := true })) :=
      modifyLink_signals fun _ => ⟨rfl, rfl, fun _ => rfl, id, id⟩
    exact m.trans stop_signals
  case isFalse => exact .refl

theorem kickTransport_signals : v.Signals t (v.kickTransport t) := by
  unfold kickTransport
  split
  case isTrue => exact kick_signals
  case isFalse => exact .refl

theorem kickFound_signals : ∃ t, v.Signals t (v.kickFound b) := by
  unfold kickFound
  split
  case h_1 => exact ⟨0, .refl⟩
  case h_2 t _ => exact ⟨t, kickTransport_signals⟩

def Informs (v v' : Server) : Prop :=
  ∃ t, ({ v with devices := v'.devices } : Server).Signals t v'

theorem Signals.informs (h : v.Signals t v') : v.Informs v' := by
  have hd : v'.devices = v.devices := by rw [h.eq]
  exact ⟨t, by rw [hd]; exact h⟩

theorem modifyDevice_informs (h : v.Informs v') : v.Informs (v'.modifyDevice i g) := by
  have ⟨t, h⟩ := h
  exact ⟨t, { h with eq := by rw [h.eq]; rfl }⟩

theorem Informs.of_modifyDevice (h : (v.modifyDevice i g).Informs v') : v.Informs v' :=
  h

theorem finishConnect_informs : v.Informs (v.finishConnect i d o) := by
  simp only [finishConnect]
  have h : v.Informs (v.modifyDevice i ({ · with thread := .finished })) := ⟨0, .refl⟩
  split
  case h_1 serial =>
    split
    case isTrue =>
      have ⟨t, hs⟩ := kickFound_signals (v := v.modifyDevice i ({ · with thread := .finished }))
        (b := serial)
      exact .of_modifyDevice hs.informs
    case isFalse => exact modifyDevice_informs h
  case h_2 =>
    split
    case isTrue => exact h
    case isFalse => exact modifyDevice_informs h

theorem connectDevice_of_registered (h : v.registered serial) :
    v.connectDevice i d (some serial) = v.finishConnect i d (some serial) := by
  simp [connectDevice, registerSocketTransport, h]

theorem connectDevice_of_not_registered (h : ¬v.registered serial) :
    v.connectDevice i d (some serial) =
      (({ v with
        links := v.links.alloc { serial }
        pendingList := v.links.next :: v.pendingList } : Server).post
          (.registerTransport v.links.next)).modifyDevice i
        ({ · with thread := .waiting serial v.links.next }) := by
  simp [connectDevice, registerSocketTransport, h]

theorem closeDevice_informs : v.Informs (v.closeDevice i d) := by
  unfold closeDevice
  split
  case isTrue => exact ⟨0, .refl⟩
  case isFalse =>
    have ⟨t, hs⟩ := kickFound_signals (v := v) (b := d.serial)
    exact modifyDevice_informs hs.informs

theorem waitForConnection_informs (h : v.waitForConnection i d serial t timedOut = some v') :
    v.Informs v' := by
  unfold waitForConnection at h
  split at h
  case h_1 => split at h <;> cases h <;> exact finishConnect_informs
  case h_2 =>
    cases h
    exact finishConnect_informs
  case h_3 =>
    split at h <;> cases h
    exact finishConnect_informs

theorem finishClientConnect_informs (h : v.finishClientConnect i d timedOut = some v') :
    v.Informs v' := by
  have ⟨status, _, hs⟩ := Option.map_eq_some_iff.mp h
  subst hs
  dsimp only
  split
  case isTrue => exact ⟨0, .refl⟩
  case isFalse => exact .of_modifyDevice closeDevice_informs

-- The listeners change. The transports that they refer to are those from before and the given one.
structure Relists (v : Server) (o : Option Tid) (v' : Server) : Prop where
  eq     : v' = { v with
    listeners    := v'.listeners
    nextListener := v'.nextListener
    disconnects  := v'.disconnects }
  refers : ∀ l' ∈ v'.listeners, l'.transport = o ∨ ∃ l ∈ v.listeners, l.transport = l'.transport

namespace Relists

theorem refl : v.Relists o v where
  eq          := rfl
  refers l hl := .inr ⟨l, hl, rfl⟩

theorem trans (h₁ : v.Relists o v₁) (h₂ : v₁.Relists o v₂) : v.Relists o v₂ where
  eq          := by rw [h₂.eq, h₁.eq]
  refers l hl := by
    rcases h₂.refers l hl with h | ⟨l₁, hl₁, h⟩
    · exact .inl h
    · rcases h₁.refers l₁ hl₁ with h' | ⟨l₀, hl₀, h'⟩
      · exact .inl (h.symm.trans h')
      · exact .inr ⟨l₀, hl₀, h'.trans h⟩

end Relists

theorem eraseListener_relists : v.Relists o (v.eraseListener l) := by
  simp only [eraseListener]
  split
  all_goals exact ⟨rfl, fun l' hl' => .inr ⟨l', (List.mem_filter.mp hl').left, rfl⟩⟩

theorem foldl_relists {f : Server → AListener → Server} (h : ∀ (v : Server) l, v.Relists o (f v l))
    (ls : List AListener) (v : Server) : v.Relists o (ls.foldl f v) := by
  induction ls generalizing v
  case nil => exact .refl
  case cons l ls ih => exact (h v l).trans (ih (f v l))

theorem removeListener_relists : v.Relists o (v.removeListener localName) := by
  unfold removeListener
  split
  case h_1 => exact .refl
  case h_2 => exact eraseListener_relists

theorem removeAllListeners_relists : v.Relists o v.removeAllListeners :=
  foldl_relists (fun _ _ => eraseListener_relists) _ v

theorem rebindListener_relists : v.Relists (some t) (v.rebindListener l connectTo t) := by
  have refers : ∀ l' ∈ v.listeners.map (fun k =>
      if k.id = l.id then { k with connectTo, transport := some t } else k),
      l'.transport = some t ∨ ∃ l ∈ v.listeners, l.transport = l'.transport := by
    intro l' hl'
    have ⟨k, hk, he⟩ := List.mem_map.mp hl'
    grind
  simp only [rebindListener]
  split
  case isTrue => exact ⟨rfl, refers⟩
  case isFalse =>
    cases l.transport
    all_goals exact ⟨rfl, refers⟩

theorem installListener_relists :
    v.Relists (some t) (v.installListener localName connectTo t noRebind bound) := by
  unfold installListener
  split
  case h_1 l hl =>
    split
    case isTrue => exact .refl
    case isFalse => exact rebindListener_relists
  case h_2 => exact .refl
  case h_3 =>
    refine ⟨rfl, fun l' hl' => ?_⟩
    grind [setDisconnects]

theorem foldl_listenerDisconnect (ids : List Nat) (v : Server) :
    ids.foldl listenerDisconnect v = { v with listeners := v.listeners.filter (·.id ∉ ids) } := by
  induction ids generalizing v
  case nil => simp
  case cons id ids ih =>
    rw [List.foldl_cons, ih]
    simp only [listenerDisconnect, List.filter_filter]
    congr 2
    funext l
    grind

theorem runDisconnects_eq : v.runDisconnects t =
    ({ v with listeners := v.listeners.filter (·.id ∉ v.disconnects t) } : Server).setDisconnects t [] := by
  rw [runDisconnects, foldl_listenerDisconnect]

theorem runDisconnects_relists : v.Relists none (v.runDisconnects t) := by
  rw [runDisconnects_eq]
  exact ⟨rfl, fun l hl => .inr ⟨l, (List.mem_filter.mp hl).left, rfl⟩⟩

theorem looper_handleOffline : (v.handleOffline t).looper = v.looper.handleOffline t := by
  unfold handleOffline
  split
  case isTrue h => simp [Looper.handleOffline, h]
  case isFalse => rw [runDisconnects_eq]; rfl

theorem handleOffline_frame : v.handleOffline t = { v with
    looper      := (v.handleOffline t).looper
    listeners   := (v.handleOffline t).listeners
    disconnects := (v.handleOffline t).disconnects } := by
  unfold handleOffline
  split
  case isTrue => rfl
  case isFalse => rw [runDisconnects_eq]; rfl

theorem handlePacket_frame : v.handlePacket t p os = { v with
    looper      := (v.handlePacket t p os).looper
    established := (v.handlePacket t p os).established
    listeners   := (v.handlePacket t p os).listeners
    disconnects := (v.handlePacket t p os).disconnects } := by
  unfold handlePacket
  split
  case h_1 =>
    simp only [handleNewConnection]
    rw [handleOffline_frame]
    rfl
  case h_2 =>
    simp only [handleAuth]
    split
    case isTrue => rfl
    case isFalse =>
      split
      case isTrue => split <;> rfl
      case isFalse => rw [handleOffline_frame]
  case h_3 => rfl

theorem looper_handleNewConnection :
    (v.handleNewConnection t p).looper = v.looper.handleNewConnection t p := by
  simp only [handleNewConnection, setConnectionEstablished, looper_handleOffline]
  rfl

theorem looper_handleAuth : (v.handleAuth t p os).looper = v.looper.handleAuth t p os := by
  simp only [handleAuth]
  split
  case isTrue h => simp [Looper.handleAuth, h]
  case isFalse hu =>
    split
    case isTrue => split <;> rfl
    case isFalse hp => simp [looper_handleOffline, Looper.handleAuth, hu, hp]

theorem handleAuth_disowns {p : Apacket} (hu : (v.looper.transports t).useTls = false)
    (hp : p.arg0 ≠ adbAuthToken) : v.handleAuth t p os = { v with
      looper := v.looper.setTransport t
        { v.looper.transports t with connectionState := .offline } } := by
  simp [handleAuth, hu, hp, handleOffline, Looper.setTransport]

theorem online_of_handleNewConnection {p : Apacket} :
    connectionStateIsOnline ((v.handleNewConnection t p).looper.transports t).connectionState := by
  simp only [handleNewConnection, setConnectionEstablished, Looper.setTransport, if_true,
    ATransport.parseBanner]
  exact ATransport.bannerState_isOnline

theorem looper_handlePacket {p : ReceivedPacket} :
    (v.handlePacket t p os).looper = v.looper.handlePacket t p.toApacket os := by
  unfold handlePacket
  split
  case h_1 hk =>
    rw [looper_handleNewConnection, Looper.handlePacket, if_neg (by simp [p.framed])]
    simp [hk]
  case h_2 hk =>
    rw [looper_handleAuth, Looper.handlePacket, if_neg (by simp [p.framed])]
    simp [hk]
  case h_3 => rfl

theorem looper_handleError : ∃ kicked, (v.handleError t).looper = v.looper.handleError t kicked := by
  have hs := (stop_signals (v := v.handleOffline t) (t := t)).eq
  simp only [handleError, transportDestroy]
  split
  case isTrue =>
    refine ⟨true, ?_⟩
    rw [hs]
    exact looper_handleOffline
  case isFalse =>
    refine ⟨false, ?_⟩
    rw [hs]
    simp only [looper_handleOffline]
    rfl

end Server

-- The steps of the process, one case for each kind of action.
inductive Server.Moves (v : Server) : Action → Server → Prop
  | run (h : v.tasks = task :: rest) (hr : v.looper.ready = []) :
    v.Moves (.run os) (({ v with tasks := rest } : Server).runTask os task)
  | event (hb : b.isEvent) (h : v.looper.next b = some s) : v.Moves (.event b) { v with looper := s }
  | read (h : (v.link t).any (·.running)) : v.Moves (.read t p) (v.post (.handlePacket t p))
  | fail (h : (v.link t).any (·.running)) : v.Moves (.fail t) (v.reportError t)
  | kick : v.Moves (.kick t) (v.kickTransport t)
  | install (h : (v.link t).isSome) :
    v.Moves (.installListener localName connectTo t noRebind bound)
      (v.installListener localName connectTo t noRebind bound)
  | remove : v.Moves (.removeListener localName) (v.removeListener localName)
  | removeAll : v.Moves .removeAllListeners v.removeAllListeners
  | accept (hl : l ∈ v.listeners) (ht : l.transport = some t) :
    v.Moves (.acceptListener l.id) { v with looper := v.looper.openService t l.connectTo }
  | connect : v.Moves (.connect address) (v.connect address)
  | connectDevice (hd : v.devices[i]? = some d) (ht : d.thread = .connecting) :
    v.Moves (.connectDevice i result) (v.connectDevice i d result)
  | waitForConnection (hd : v.devices[i]? = some d) (ht : d.thread = .waiting serial t)
    (h : v.waitForConnection i d serial t timedOut = some v') :
    v.Moves (.waitForConnection i timedOut) v'
  | finishClientConnect (hd : v.devices[i]? = some d) (hs : d.status = none)
    (h : v.finishClientConnect i d timedOut = some v') :
    v.Moves (.finishClientConnect i timedOut) v'
  | startSession (hd : v.devices[i]? = some d) (ht : v.findTransport d.serial = some t) :
    v.Moves (.startSession i service) { v with starting := v.starting ++ [(t, service)] }
  | postSession (h : v.starting[n]? = some (t, service)) :
    v.Moves (.postSession n)
      (({ v with starting := v.starting.eraseIdx n } : Server).post (.startSession t service))
  | close (hd : v.devices[i]? = some d) (hs : d.status = some .ok) :
    v.Moves (.close i) (v.closeDevice i d)

namespace Server

variable {v v' : Server} {a : Action}

theorem step_moves (h : v.step a = some v') : v.Moves a v' := by
  cases a <;>
    simp only [step, Option.ite_none_right_eq_some, Option.some.injEq, Option.bind_eq_some_iff,
      Option.map_eq_some_iff] at h
  case run os =>
    split at h
    case h_1 => cases h
    case h_2 task tasks ht =>
      simp only [Option.ite_none_right_eq_some, Option.some.injEq] at h
      exact h.right ▸ .run ht h.left
  case event b =>
    have ⟨hb, s, hs, he⟩ := h
    exact he ▸ .event hb hs
  case read t p => exact h.right ▸ .read h.left
  case fail t => exact h.right ▸ .fail h.left
  case kick t => exact h ▸ .kick
  case installListener => exact h.right ▸ .install h.left
  case removeListener => exact h ▸ .remove
  case removeAllListeners => exact h ▸ .removeAll
  case acceptListener id =>
    have ⟨_, ⟨l, hl, t, ht, hp⟩, he⟩ := h
    subst hp
    have hid : l.id = id := by simpa using List.find?_some hl
    exact he ▸ hid ▸ .accept (List.mem_of_find?_eq_some hl) ht
  case connect => exact h ▸ .connect
  case connectDevice i result =>
    have ⟨d, hd, ht, he⟩ := h
    exact he ▸ .connectDevice hd ht
  case waitForConnection i timedOut =>
    have ⟨d, hd, h⟩ := h
    split at h
    case h_1 serial t ht => exact .waitForConnection hd ht h
    case h_2 => cases h
  case finishClientConnect i timedOut =>
    have ⟨d, hd, hs, h⟩ := h
    exact .finishClientConnect hd hs h
  case startSession i service =>
    have ⟨d, hd, t, ht, he⟩ := h
    exact he ▸ .startSession hd ht
  case postSession n =>
    have ⟨_, hs, he⟩ := h
    exact he ▸ .postSession hs
  case close i =>
    have ⟨d, hd, hs, he⟩ := h
    exact he ▸ .close hd hs

theorem next_moves (h : v.next a = some v') : v.looper.aborted = none ∧ v.Moves a v' := by
  unfold next at h
  split at h
  case isTrue => cases h
  case isFalse ha => exact ⟨by simpa using ha, step_moves h⟩

theorem next_run (h : v.next (.run os) = some v') (ht : v.tasks = task :: rest) :
    v' = ({ v with tasks := rest } : Server).runTask os task := by
  have ⟨_, m⟩ := next_moves h
  cases m
  case run ht' _ =>
    cases ht.symm.trans ht'
    rfl

end Server

-- The action of the looper that a step of the process contains.
inductive Server.Performs (v : Server) : Action → Looper.Action → Prop
  | packet (h : v.tasks = .handlePacket t p :: rest) : v.Performs (.run os) (.packet t p os)
  | error (h : v.tasks = .handleError t :: rest) : v.Performs (.run os) (.handleError t kicked)
  | session (h : v.tasks = .startSession t service :: rest) :
    v.Performs (.run os) (.openService t service)
  | listener (hl : l ∈ v.listeners) (ht : l.transport = some t) :
    v.Performs (.acceptListener l.id) (.openService t l.connectTo)
  | event (h : b.isEvent) : v.Performs (.event b) b

namespace Server

variable {v v' : Server} {a : Action} {t : Tid}

theorem Informs.looper (h : v.Informs v') : v'.looper = v.looper := by
  have ⟨_, h⟩ := h
  rw [h.eq]

theorem looper_connect : (v.connect address).looper = v.looper := by
  unfold connect
  split <;> rfl

theorem looper_connectDevice : (v.connectDevice i d result).looper = v.looper := by
  cases result
  case none => exact finishConnect_informs.looper
  case some serial =>
    by_cases h : v.registered serial
    case pos =>
      rw [connectDevice_of_registered h]
      exact finishConnect_informs.looper
    case neg =>
      rw [connectDevice_of_not_registered h]
      rfl

theorem Moves.simulates (m : v.Moves a v') (hl : v.looper.aborted = none) :
    v'.looper = v.looper ∨ ∃ b, v.looper.next b = some v'.looper ∧ v.Performs a b := by
  have next (b) : v.looper.next b = v.looper.step b := if_neg (by simp [hl])
  cases m
  case run task rest os h hr =>
    cases task
    case registerTransport t =>
      refine .inl ?_
      simp only [runTask, registerTransport]
      split <;> rfl
    case handlePacket t p =>
      refine .inr ⟨_, ?_, .packet h⟩
      simp only [next, runTask, looper_handlePacket, Looper.step, hr, if_true]
    case handleError t =>
      obtain ⟨kicked, hk⟩ := looper_handleError (v := { v with tasks := rest }) (t := t)
      refine .inr ⟨.handleError t kicked, ?_, .error h⟩
      simp only [next, runTask, hk, Looper.step, hr, if_true]
    case unregisterTransport t => exact .inl rfl
    case startSession t service =>
      refine .inr ⟨_, ?_, .session h⟩
      simp only [next, runTask, Looper.step]
  case event b s hb h => exact .inr ⟨b, h, .event hb⟩
  case read | startSession | postSession => exact .inl rfl
  case fail h =>
    refine .inl ?_
    rw [(reportError_signals (started_of_running h)).eq]
  case kick => exact .inl (by rw [kickTransport_signals.eq])
  case install => exact .inl (by rw [installListener_relists.eq])
  case remove => exact .inl (by rw [(removeListener_relists (o := none)).eq])
  case removeAll => exact .inl (by rw [(removeAllListeners_relists (o := none)).eq])
  case accept l t hl ht => exact .inr ⟨_, next _, .listener hl ht⟩
  case connect => exact .inl looper_connect
  case connectDevice => exact .inl looper_connectDevice
  case waitForConnection h => exact .inl (waitForConnection_informs h).looper
  case finishClientConnect h => exact .inl (finishClientConnect_informs h).looper
  case close => exact .inl closeDevice_informs.looper

theorem looper_next (h : v.next a = some v') :
    v'.looper = v.looper ∨ ∃ b, v.looper.next b = some v'.looper ∧ v.Performs a b :=
  have ⟨hl, m⟩ := next_moves h
  m.simulates hl

theorem Reachable.looper (h : Reachable P v) : Looper.Reachable (fun _ _ => True) v.looper := by
  refine Reach.invariant (I := fun v : Server => Looper.Reachable (fun _ _ => True) v.looper)
    ?_ h .refl
  intro v a v' _ hs k
  rcases looper_next hs with he | ⟨b, hb, _⟩
  · rwa [he]
  · exact k.tail trivial hb

theorem Reachable.wf (h : Reachable P v) : v.looper.WF :=
  h.looper.wf

end Server

-- The step handles a packet or an error that can change the state of the transport's connection.
inductive Server.Reconnects (v : Server) (t : Tid) : Action → Server → Prop
  | packet (h : v.tasks = .handlePacket t p :: rest)
    (hk : p.kind = some .cnxn ∨ p.kind = some .auth) :
    v.Reconnects t (.run os) (({ v with tasks := rest } : Server).handlePacket t p os)
  | error (h : v.tasks = .handleError t :: rest) :
    v.Reconnects t (.run os) (({ v with tasks := rest } : Server).handleError t)

namespace Server

variable {v v' : Server} {a : Action} {t : Tid}

theorem Reconnects.task (h : v.Reconnects t a v') : ∃ os, a = .run os ∧
    ((∃ p rest, v.tasks = .handlePacket t p :: rest ∧
      (p.kind = some .cnxn ∨ p.kind = some .auth)) ∨ ∃ rest, v.tasks = .handleError t :: rest) := by
  cases h
  case packet rest p os h hk => exact ⟨os, rfl, .inl ⟨p, rest, h, hk⟩⟩
  case error rest os h => exact ⟨os, rfl, .inr ⟨rest, h⟩⟩

theorem Moves.reconnects (m : v.Moves a v') (h : v.Performs a b) (hb : Looper.Reconnects b t) :
    v.Reconnects t a v' := by
  cases h
  case packet t' p rest os ht =>
    rcases hb with ⟨_, _, he, hk⟩ | ⟨_, he⟩ <;> cases he
    cases m
    case run h _ =>
      cases h.symm.trans ht
      exact .packet ht hk
  case error t' rest kicked os ht =>
    rcases hb with ⟨_, _, he, hk⟩ | ⟨_, he⟩ <;> cases he
    cases m
    case run h _ =>
      cases h.symm.trans ht
      exact .error ht
  case session => rcases hb with ⟨_, _, he, _⟩ | ⟨_, he⟩ <;> cases he
  case listener => rcases hb with ⟨_, _, he, _⟩ | ⟨_, he⟩ <;> cases he
  case event hb' => rcases hb with ⟨_, _, rfl, _⟩ | ⟨_, rfl⟩ <;> cases hb'

theorem link_next (w : v.looper.WF) (h : v.next a = some v') :
    Looper.linkOf (v'.looper.transports t) = Looper.linkOf (v.looper.transports t) ∨ v.Reconnects t a v' := by
  have ⟨hl, m⟩ := next_moves h
  rcases m.simulates hl with he | ⟨b, hb, hp⟩
  · exact .inl (by rw [he])
  · by_cases hr : Looper.Reconnects b t
    case pos => exact .inr (m.reconnects hp hr)
    case neg => exact .inl (Looper.next_preserves_link w hb hr)

end Server

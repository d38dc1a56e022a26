import LibAdb.Machine.Server

-- The serials in the registry. No two transports that are listed have the same one.

namespace Server

variable {v v' v₁ v₂ : Server} {a : Action} {t u : Tid} {i : Nat} {d : Device} {os : Os}

structure SameRegistry (v v' : Server) : Prop where
  pending : v'.pendingList = v.pendingList
  list    : v'.transportList = v.transportList
  next    : v'.links.next = v.links.next
  serial  : ∀ serial t, v'.hasSerial serial t = v.hasSerial serial t

namespace SameRegistry

theorem of_links (pending : v'.pendingList = v.pendingList)
    (list : v'.transportList = v.transportList) (links : v'.links = v.links) : v.SameRegistry v' where
  pending    := pending
  list       := list
  next       := by rw [links]
  serial _ _ := by simp only [hasSerial, link, links]

theorem trans (h₁ : v.SameRegistry v₁) (h₂ : v₁.SameRegistry v₂) : v.SameRegistry v₂ where
  pending    := h₂.pending.trans h₁.pending
  list       := h₂.list.trans h₁.list
  next       := h₂.next.trans h₁.next
  serial s t := (h₂.serial s t).trans (h₁.serial s t)

theorem findTransport (h : v.SameRegistry v') (serial : Bytes) :
    v'.findTransport serial = v.findTransport serial := by
  have : v'.hasSerial serial = v.hasSerial serial := funext (h.serial serial)
  simp only [Server.findTransport, h.list, this]

end SameRegistry

theorem Signals.registry (h : v.Signals t v') : v.SameRegistry v' where
  pending := by rw [h.eq]
  list := by rw [h.eq]
  next := h.next
  serial serial u := by
    simp only [hasSerial]
    by_cases hu : u = t
    case neg => rw [h.other u hu]
    case pos =>
      subst hu
      cases hl : v.link u
      case none => rw [h.absent hl]
      case some l =>
        have ⟨l', hl', a⟩ := h.present l hl
        simp [hl', a.serial]

theorem Informs.registry (h : v.Informs v') : v.SameRegistry v' :=
  have ⟨_, h⟩ := h
  { h.registry with }

theorem handlePacket_registry : v.SameRegistry (v.handlePacket t p os) := by
  rw [handlePacket_frame]
  exact .of_links rfl rfl rfl

theorem handleError_registry : v.SameRegistry (v.handleError t) := by
  have hs := (stop_signals (v := v.handleOffline t) (t := t)).registry
  have ho : v.SameRegistry (v.handleOffline t) := by
    rw [handleOffline_frame]
    exact .of_links rfl rfl rfl
  simp only [handleError, transportDestroy]
  split <;> exact (ho.trans hs).trans (.of_links rfl rfl rfl)

theorem Relists.registry (h : v.Relists o v') : v.SameRegistry v' :=
  .of_links (by rw [h.eq]) (by rw [h.eq]) (by rw [h.eq])

theorem connect_registry : v.SameRegistry (v.connect address) := by
  unfold connect
  split <;> exact .of_links rfl rfl rfl

-- The two lists and the serials after a transport was added, admitted or deleted.
structure Enrolled (v : Server) (serial : Bytes) (v' : Server) : Prop where
  fresh   : ¬v.registered serial
  pending : v'.pendingList = v.links.next :: v.pendingList
  list    : v'.transportList = v.transportList
  next    : v'.links.next = v.links.next + 1
  serial  : ∀ s t, v'.hasSerial s t = if t = v.links.next then serial == s else v.hasSerial s t

structure Admitted (v : Server) (t : Tid) (v' : Server) : Prop where
  pending : v'.pendingList = v.pendingList.filter (· != t)
  list    : v'.transportList = t :: v.transportList
  mem     : t ∈ v.pendingList
  next    : v'.links.next = v.links.next
  serial  : ∀ s t, v'.hasSerial s t = v.hasSerial s t

structure Deleted (v : Server) (t : Tid) (v' : Server) : Prop where
  pending : v'.pendingList = v.pendingList
  list    : v'.transportList = v.transportList.filter (· != t)
  next    : v'.links.next = v.links.next
  serial  : ∀ s u, v'.hasSerial s u ↔ u ≠ t ∧ v.hasSerial s u

theorem connectDevice_enrolled (h : ¬v.registered serial) :
    v.Enrolled serial (v.connectDevice i d (some serial)) := by
  rw [connectDevice_of_not_registered h]
  refine ⟨h, rfl, rfl, rfl, fun s t => ?_⟩
  simp only [hasSerial, link, modifyDevice, post, Store.get_alloc]
  split <;> simp

theorem links_registerTransport :
    (v.registerTransport t).links = v.links.modify t ({ · with started := true }) := by
  simp only [registerTransport]
  split <;> rfl

theorem looper_registerTransport : (v.registerTransport t).looper = v.looper := by
  simp only [registerTransport]
  split <;> rfl

theorem registerTransport_hasSerial (s : Bytes) (u : Tid) :
    (v.registerTransport t).hasSerial s u = v.hasSerial s u := by
  simp only [hasSerial, link, links_registerTransport, Store.get_modify]
  split
  case isTrue hu => simp [hu, Option.any_map]
  case isFalse => rfl

theorem registerTransport_admitted (h : t ∈ v.pendingList) :
    v.Admitted t (v.registerTransport t) := by
  have hp : t ∈ (v.modifyLink t ({ · with started := true })).pendingList := h
  refine ⟨?_, ?_, h, by rw [links_registerTransport]; rfl, registerTransport_hasSerial⟩ <;>
    simp only [registerTransport, if_pos hp] <;> rfl

theorem registerTransport_registry (h : t ∉ v.pendingList) :
    v.SameRegistry (v.registerTransport t) := by
  have hp : t ∉ (v.modifyLink t ({ · with started := true })).pendingList := h
  refine ⟨?_, ?_, by rw [links_registerTransport]; rfl, registerTransport_hasSerial⟩ <;>
    simp only [registerTransport, if_neg hp] <;> rfl

theorem unregisterTransport_deleted : v.Deleted t (v.unregisterTransport t) := by
  refine ⟨rfl, rfl, rfl, fun s u => ?_⟩
  simp only [hasSerial, link, unregisterTransport, setConnectionEstablished, Store.get_free]
  split
  case isTrue hu => simp [hu]
  case isFalse hu => simp [hu]

end Server

inductive Server.Registers (v : Server) : Action → Server → Prop
  | same (h : v.SameRegistry v') : v.Registers a v'
  | enroll (hd : v.devices[i]? = some d) (ht : d.thread = .connecting) (h : v.Enrolled serial v') :
    v.Registers (.connectDevice i (some serial)) v'
  | admitted (ht : v.tasks = .registerTransport t :: rest) (h : v.Admitted t v') :
    v.Registers (.run os) v'
  | delete (ht : v.tasks = .unregisterTransport t :: rest) (h : v.Deleted t v') :
    v.Registers (.run os) v'

namespace Server

variable {v v' : Server} {a : Action} {t u : Tid}

theorem Moves.registers (m : v.Moves a v') : v.Registers a v' := by
  cases m
  case run task rest os h hr =>
    cases task
    case registerTransport t =>
      by_cases hp : t ∈ v.pendingList
      case pos => exact .admitted h { registerTransport_admitted (v := { v with tasks := rest }) hp with }
      case neg => exact .same { registerTransport_registry (v := { v with tasks := rest }) hp with }
    case handlePacket => exact .same { handlePacket_registry (v := { v with tasks := rest }) with }
    case handleError => exact .same { handleError_registry (v := { v with tasks := rest }) with }
    case unregisterTransport t =>
      exact .delete h { unregisterTransport_deleted (v := { v with tasks := rest }) with }
    case startSession => exact .same (.of_links rfl rfl rfl)
  case event | read | accept | startSession | postSession => exact .same (.of_links rfl rfl rfl)
  case fail h => exact .same (reportError_signals (started_of_running h)).registry
  case kick => exact .same kickTransport_signals.registry
  case install => exact .same installListener_relists.registry
  case remove => exact .same (removeListener_relists (o := none)).registry
  case removeAll => exact .same (removeAllListeners_relists (o := none)).registry
  case connect => exact .same connect_registry
  case connectDevice i d result hd ht =>
    cases result
    case none => exact .same (finishConnect_informs (o := none)).registry
    case some serial =>
      by_cases hr : v.registered serial
      case pos =>
        rw [connectDevice_of_registered hr]
        exact .same finishConnect_informs.registry
      case neg => exact .enroll hd ht (connectDevice_enrolled hr)
  case waitForConnection h => exact .same (waitForConnection_informs h).registry
  case finishClientConnect h => exact .same (finishClientConnect_informs h).registry
  case close => exact .same closeDevice_informs.registry

def listed (v : Server) : List Tid :=
  v.pendingList ++ v.transportList

structure WellListed (v : Server) : Prop where
  below    : ∀ t ∈ v.listed, t < v.links.next
  distinct : ∀ serial, ∀ t ∈ v.listed, ∀ u ∈ v.listed, v.hasSerial serial t →
    v.hasSerial serial u → t = u

theorem WellListed.mono (k : v.WellListed) (listed : ∀ t ∈ v'.listed, t ∈ v.listed)
    (next : v'.links.next = v.links.next) (serial : ∀ s t, v'.hasSerial s t → v.hasSerial s t) :
    v'.WellListed where
  below t ht := next ▸ k.below t (listed t ht)
  distinct s t ht u hu hst hsu :=
    k.distinct s t (listed t ht) u (listed u hu) (serial s t hst) (serial s u hsu)

theorem Enrolled.wellListed (h : v.Enrolled s v') (k : v.WellListed) : v'.WellListed := by
  have fresh : ∀ t ∈ v.listed, ¬v.hasSerial s t := by
    simpa [registered, listed, or_imp, forall_and] using h.fresh
  have listed (t) : t ∈ v'.listed ↔ t = v.links.next ∨ t ∈ v.listed := by
    simp [listed, h.pending, h.list]
  constructor
  case below =>
    intro t ht
    have := k.below t
    rw [listed] at ht
    rw [h.next]
    grind
  case distinct =>
    intro serial t ht u hu hst hsu
    rw [listed] at ht hu
    rw [h.serial] at hst hsu
    have := k.distinct serial t
    have := fresh t
    have := fresh u
    grind

theorem Registers.wellListed (h : v.Registers a v') (k : v.WellListed) : v'.WellListed := by
  cases h
  case same h =>
    refine k.mono (by simp [listed, h.pending, h.list]) h.next fun s t hs => h.serial s t ▸ hs
  case enroll h => exact h.wellListed k
  case admitted t h =>
    refine k.mono (fun u hu => ?_) h.next fun s t hs => h.serial s t ▸ hs
    have := h.mem
    simp only [listed, h.pending, h.list] at hu ⊢
    grind
  case delete t h =>
    refine k.mono (fun u hu => ?_) h.next fun s t hs => ((h.serial s t).mp hs).right
    simp only [listed, h.pending, h.list] at hu ⊢
    grind

theorem Reachable.wellListed (h : Reachable P v) : v.WellListed := by
  refine Reach.invariant (I := WellListed) (fun v a v' _ hs k => ?_) h ⟨nofun, nofun⟩
  exact (next_moves hs).right.registers.wellListed k

theorem findTransport_eq_some (k : v.WellListed) :
    v.findTransport serial = some t ↔ t ∈ v.transportList ∧ v.hasSerial serial t := by
  refine ⟨fun h => ⟨List.mem_of_find?_eq_some h, List.find?_some h⟩, fun ⟨ht, hs⟩ => ?_⟩
  cases hf : v.findTransport serial
  case none => exact absurd hs (List.find?_eq_none.mp hf t ht)
  case some u =>
    have hu := List.mem_of_find?_eq_some hf
    have := List.find?_some hf
    rw [k.distinct serial u (by simp [listed, hu]) t (by simp [listed, ht]) this hs]

theorem Enrolled.findTransport (h : v.Enrolled s v') (k : v.WellListed) (serial : Bytes) :
    v'.findTransport serial = v.findTransport serial := by
  refine Option.ext fun u => ?_
  rw [findTransport_eq_some k, findTransport_eq_some (h.wellListed k), h.list, h.serial]
  refine and_congr_right fun hu => ?_
  rw [if_neg (Nat.ne_of_lt (k.below u (by simp [listed, hu])))]

theorem Admitted.findTransport (h : v.Admitted t v') (serial : Bytes) :
    v'.findTransport serial =
      if v.hasSerial serial t then some t else v.findTransport serial := by
  have : v'.hasSerial serial = v.hasSerial serial := funext (h.serial serial)
  simp only [Server.findTransport, h.list, this, List.find?_cons]
  split <;> simp_all

theorem Deleted.findTransport (h : v.Deleted t v') (k : v.WellListed) (k' : v'.WellListed)
    (serial : Bytes) :
    v'.findTransport serial = some u ↔ v.findTransport serial = some u ∧ u ≠ t := by
  rw [findTransport_eq_some k, findTransport_eq_some k', h.list, h.serial]
  simp only [List.mem_filter, bne_iff_ne]
  grind

end Server

def Device.finish (d : Device) (serial : Option Bytes) : Device :=
  let d := { d with thread := .finished }
  if d.closed then d
  else
    match serial with
    | some serial => { d with
        serial
        listener := d.listener.onConnectionStateChanged serial .device }
    | none => { d with listener := d.listener.onError }

def Device.detach (d : Device) : Device :=
  if d.closed then d
  else { d with
    closed   := true
    listener := d.listener.onConnectionStateChanged d.serial .detached }

namespace Server

variable {v v' : Server} {a : Action} {t : Tid} {i : Nat} {d : Device} {os : Os}

theorem devices_runTask (task : LooperTask) : (v.runTask o task).devices = v.devices := by
  cases task
  case registerTransport t =>
    simp only [runTask, registerTransport]
    split <;> rfl
  case handlePacket t p =>
    rw [runTask, handlePacket_frame]
  case handleError t =>
    have hs : ((v.handleOffline t).stop t).devices = v.devices := by
      rw [stop_signals.eq, handleOffline_frame]
    simp only [runTask, handleError, transportDestroy]
    split <;> exact hs
  case unregisterTransport | startSession => rfl

def Action.isAside : Action → Bool
  | .event _ | .read _ _ | .installListener _ _ _ _ _ | .removeListener _ | .removeAllListeners
  | .acceptListener _ | .startSession _ _ | .postSession _ => true
  | _ => false

theorem Moves.aside (m : v.Moves a v') (ha : a.isAside) : v'.devices = v.devices ∧
    v'.links = v.links ∧ v'.pendingList = v.pendingList ∧ v'.transportList = v.transportList := by
  cases m
  case event | read | accept | startSession | postSession => exact ⟨rfl, rfl, rfl, rfl⟩
  case install => rw [installListener_relists.eq]; simp
  case remove => rw [(removeListener_relists (o := none)).eq]; simp
  case removeAll => rw [(removeAllListeners_relists (o := none)).eq]; simp
  all_goals cases ha

theorem devices_modifyDevice (hd : v.devices[i]? = some d) :
    (v.modifyDevice i f).devices = v.devices.set i (f d) := by
  simp [modifyDevice, List.modify_eq_set_getElem?, hd]

theorem device_modifyDevice (hd : v.devices[i]? = some d) :
    (v.modifyDevice i f).devices[i]? = some (f d) := by
  simp [modifyDevice, hd]

theorem devices_kickFound : (v.kickFound serial).devices = v.devices := by
  have ⟨t, h⟩ := kickFound_signals (v := v) (b := serial)
  rw [h.eq]

theorem devices_finishConnect (hd : v.devices[i]? = some d) :
    (v.finishConnect i d serial).devices = v.devices.set i (d.finish serial) := by
  have hd' := device_modifyDevice (f := ({ · with thread := .finished })) hd
  simp only [finishConnect, Device.finish]
  split <;> split
  case h_1.isTrue => rw [devices_kickFound, devices_modifyDevice hd]
  case h_1.isFalse => rw [devices_modifyDevice hd', devices_modifyDevice hd, List.set_set]
  case h_2.isTrue => rw [devices_modifyDevice hd]
  case h_2.isFalse => rw [devices_modifyDevice hd', devices_modifyDevice hd, List.set_set]

theorem devices_closeDevice (hd : v.devices[i]? = some d) :
    (v.closeDevice i d).devices = v.devices.set i d.detach := by
  unfold closeDevice Device.detach
  split
  case isTrue =>
    have ⟨_, he⟩ := List.getElem?_eq_some_iff.mp hd
    rw [← he, List.set_getElem_self]
  case isFalse => rw [devices_modifyDevice (devices_kickFound ▸ hd), devices_kickFound]

theorem devices_finishClientConnect (hd : v.devices[i]? = some d)
    (h : v.finishClientConnect i d timedOut = some v') :
    ∃ status, waitUntilOnline d.listener timedOut = some status ∧
      v'.devices = v.devices.set i
        (if status = .ok then { d with status := some status }
        else Device.detach { d with status := some status }) := by
  have ⟨status, hw, hs⟩ := Option.map_eq_some_iff.mp h
  subst hs
  refine ⟨status, hw, ?_⟩
  dsimp only
  have hd' := device_modifyDevice (f := ({ · with status := some status })) hd
  split
  case isTrue => rw [devices_modifyDevice hd]
  case isFalse =>
    have := devices_closeDevice hd'
    rw [devices_modifyDevice hd, List.set_set] at this
    exact this

theorem forall_mem_set {l : List Device} {Q : Device → Prop} (hd : l[i]? = some d)
    (k : ∀ x ∈ l, Q x) : (∀ x ∈ l.set i d', Q x) ↔ Q d' := by
  have ⟨hi, _⟩ := List.getElem?_eq_some_iff.mp hd
  refine ⟨fun h => h d' (List.mem_set hi d'), fun h x hx => ?_⟩
  rcases List.mem_or_eq_of_mem_set hx with hx | rfl
  · exact k x hx
  · exact h

theorem forall_mem_set_congr {l : List Device} {Q : Device → Prop} (hd : l[i]? = some d)
    (h : Q d' ↔ Q d) : (∀ x ∈ l.set i d', Q x) ↔ ∀ x ∈ l, Q x := by
  have ⟨hi, he⟩ := List.getElem?_eq_some_iff.mp hd
  refine ⟨fun k x hx => ?_, fun k => (forall_mem_set hd k).mpr (h.mpr (k d (List.mem_of_getElem? hd)))⟩
  have ⟨j, hj, hx⟩ := List.mem_iff_getElem.mp hx
  by_cases hij : i = j
  case pos =>
    subst hij
    exact hx ▸ he ▸ h.mp (k d' (List.mem_set hi d'))
  case neg =>
    refine k x (List.mem_iff_getElem.mpr ⟨j, by simpa using hj, ?_⟩)
    rw [List.getElem_set_ne hij, hx]

end Server

namespace Server

variable {v v' : Server} {a : Action} {t u : Tid} {os : Os} {p : ReceivedPacket}

def alive (v : Server) (t : Tid) : Bool :=
  connectionStateIsOnline (v.looper.transports t).connectionState

theorem alive_next (w : v.looper.WF) (h : v.next a = some v') :
    v'.alive t = v.alive t ∨ v.Reconnects t a v' :=
  (link_next w h).imp_left fun he =>
    congrArg connectionStateIsOnline (congrArg Prod.fst he :)

theorem alive_handleNewConnection {p : Apacket} : (v.handleNewConnection t p).alive t :=
  online_of_handleNewConnection

theorem not_alive_handleAuth {p : Apacket} (hu : (v.looper.transports t).useTls = false) :
    (v.handleAuth t p os).alive t = false := by
  by_cases hp : p.arg0 = adbAuthToken
  case pos =>
    rw [alive, looper_handleAuth]
    rcases Looper.state_of_token (o := os) hu hp with hs | hs <;> simp [hs, connectionStateIsOnline]
  case neg =>
    simp [alive, handleAuth_disowns hu hp, Looper.setTransport, connectionStateIsOnline]

def Demotes (v : Server) (t : Tid) (p : ReceivedPacket) : Prop :=
  p.kind = some .auth ∧ (v.looper.transports t).useTls = false

theorem not_alive_of_demotes (h : v.Demotes t p) : (v.handlePacket t p os).alive t = false := by
  simpa [handlePacket, h.left] using not_alive_handleAuth h.right

theorem alive_aside (w : v.looper.WF) (ha : a.isAside) (hs : v.next a = some v') :
    v'.alive t = v.alive t := by
  refine (alive_next w hs).resolve_right fun hr => ?_
  have ⟨_, he, _⟩ := hr.task
  subst he
  cases ha

theorem alive_unless (w : v.looper.WF) (hs : v.next a = some v')
    (hp : ∀ p rest, v.tasks ≠ .handlePacket t p :: rest)
    (he : ∀ rest, v.tasks ≠ .handleError t :: rest) : v'.alive t = v.alive t := by
  refine (alive_next w hs).resolve_right fun hr => ?_
  rcases hr.task with ⟨_, _, ⟨p, rest, h, _⟩ | ⟨rest, h⟩⟩
  · exact hp p rest h
  · exact he rest h

theorem alive_of_not_demotes (w : v.looper.WF) (ht : v.tasks = .handlePacket t p :: rest)
    (hs : v.next (.run os) = some v')
    (he : v' = ({ v with tasks := rest } : Server).handlePacket t p os) (hk : ¬v.Demotes t p)
    (ha : v.alive u) : v'.alive u := by
  rcases alive_next (t := u) w hs with h | hr
  · rwa [h]
  · have ⟨_, _, h⟩ := hr.task
    simp only [ht, List.cons.injEq, LooperTask.handlePacket.injEq] at h
    rcases h with ⟨_, _, ⟨⟨rfl, rfl⟩, rfl⟩, hc | hc⟩ | ⟨_, h, _⟩
    · simpa [he, handlePacket, hc] using alive_handleNewConnection
    · have hu : (v.looper.transports t).useTls := by simpa [Demotes, hc] using hk
      simpa [he, handlePacket, handleAuth, hc, hu, alive] using ha
    · cases h

theorem state_handleError (w : v.looper.WF) :
    ((v.handleError t).looper.transports t).connectionState = .offline := by
  have ⟨kicked, h⟩ := looper_handleError (v := v) (t := t)
  rw [h]
  have := Looper.handleOffline_offline (t := t) w
  cases kicked <;> simp [Looper.handleError, Looper.setTransport, this]

theorem not_alive_handleError (w : v.looper.WF) : (v.handleError t).alive t = false := by
  simp [alive, state_handleError w, connectionStateIsOnline]

end Server

import LibAdb.Machine.Beliefs

-- Whether a device that counts as online has a transport that is online.

namespace Server

variable {v v' : Server} {a : Action} {t : Tid} {i : Nat} {d d' : Device} {os : Os}

def Trusts (v : Server) (d : Device) : Prop :=
  v.isOnline d → (v.findTransport d.serial).any v.alive

def Sound (v : Server) : Prop :=
  ∀ d ∈ v.devices, v.Trusts d

def Serves (v : Server) (t : Tid) : Prop :=
  ∃ d ∈ v.devices, v.isOnline d ∧ v.findTransport d.serial = some t

-- The device is told that it is online, but the transport with the serial is not.
def Misleads (v : Server) (i : Nat) (serial : Bytes) : Prop :=
  ∃ d, v.devices[i]? = some d ∧ d.closed = false ∧
    ∃ t, v.findTransport serial = some t ∧ v.alive t = false

-- The steps that leave a device with the belief that it is online.
def Strands (v : Server) : Action → Prop
  | .run _ =>
    match v.tasks with
    | .handleError t :: _ => v.Serves t
    | .handlePacket t p :: _ => v.Demotes t p ∧ v.Serves t
    | .registerTransport t :: _ =>
      t ∈ v.pendingList ∧ v.alive t = false ∧
        ∃ d ∈ v.devices, d.closed = false ∧ d.listener.online ∧ v.hasSerial d.serial t
    | _ => False
  | .connectDevice i (some serial) => v.registered serial ∧ v.Misleads i serial
  | .waitForConnection i _ => ∃ d serial t, v.devices[i]? = some d ∧ d.thread = .waiting serial t ∧
      v.established t = some true ∧ (v.looper.transports t).connectionState ≠ .unauthorized ∧
      v.Misleads i serial
  | _ => False

def isOnline.belief : Belief where
  holds d  := !d.closed && d.listener.online
  linked _ := true
  missing  := true
  online   := by simp
  fresh _  := rfl

theorem trusts_iff : v.Trusts d ↔ v.Backs isOnline.belief d := by
  cases hf : v.findTransport d.serial <;> simp [Trusts, isOnline, Backs, isOnline.belief, carries, hf]

theorem sound_iff : v.Sound ↔ v.Backed isOnline.belief :=
  forall₂_congr fun _ _ => trusts_iff

theorem serves_iff : v.Serves t ↔ v.Relies isOnline.belief t := by
  refine exists_congr fun d => and_congr_right fun _ => ⟨fun ⟨ho, hf⟩ => ?_, fun ⟨hb, hf⟩ => ?_⟩
  · exact ⟨(Bool.and_eq_true_iff.mp ho).left, hf⟩
  · exact ⟨by simpa [isOnline, isOnline.belief, hf] using hb, hf⟩

theorem carries_of_alive (h : ∀ t, v'.alive t = v.alive t) (t : Tid) :
    v'.carries isOnline.belief t = v.carries isOnline.belief t :=
  congrArg (· && true) (h t)

theorem Sound.congr (k : v.Sound) (find : ∀ s, v'.findTransport s = v.findTransport s)
    (h : ∀ t, v'.alive t = v.alive t) (devices : v'.devices = v.devices) : v'.Sound :=
  sound_iff.mpr ((sound_iff.mp k).congr find (carries_of_alive h) devices)

theorem Sound.signals (k : v.Sound) (h : v.Signals t v') : v'.Sound := by
  refine k.congr h.registry.findTransport (fun u => ?_) (by rw [h.eq])
  rw [h.eq]
  rfl

theorem Sound.set (k : v.Sound) (find : ∀ s, v'.findTransport s = v.findTransport s)
    (h : ∀ t, v'.alive t = v.alive t) (hd : v.devices[i]? = some d)
    (devices : v'.devices = v.devices.set i d') : v'.Sound ↔ v'.Trusts d' :=
  sound_iff.trans (((sound_iff.mp k).set find (carries_of_alive h) hd devices).trans trusts_iff.symm)

theorem trusts_congr (k : v.Trusts d) (find : ∀ s, v'.findTransport s = v.findTransport s)
    (h : ∀ t, v'.alive t = v.alive t) (closed : d'.closed = d.closed)
    (online : d'.listener.online = d.listener.online) (serial : d'.serial = d.serial) :
    v'.Trusts d' := by
  have : v'.alive = v.alive := funext h
  simpa only [Trusts, isOnline, find, this, closed, online, serial] using k

theorem finish_trusts (k : v.Trusts d) (find : ∀ s, v'.findTransport s = v.findTransport s)
    (h : ∀ t, v'.alive t = v.alive t) : v'.Trusts (d.finish serial) ↔
      ¬∃ s t, serial = some s ∧ d.closed = false ∧ v.findTransport s = some t ∧ v.alive t = false := by
  have ha : v'.alive = v.alive := funext h
  unfold Device.finish
  dsimp only
  split
  case isTrue hc =>
    exact iff_of_true (trusts_congr k find h rfl rfl rfl) (by simp [hc])
  case isFalse hc =>
    cases serial
    case none => exact iff_of_true (trusts_congr k find h rfl rfl rfl) (by simp)
    case some s =>
      simp only [Trusts, isOnline, find, ha, FacadeListener.onConnectionStateChanged]
      cases hf : v.findTransport s <;> simp_all

theorem finishConnect_sound (k : v.Sound) (hd : v.devices[i]? = some d) :
    (v.finishConnect i d o).Sound ↔ ¬∃ s, o = some s ∧ v.Misleads i s := by
  have inf := finishConnect_informs (v := v) (i := i) (d := d) (o := o)
  have ha (t) : (v.finishConnect i d o).alive t = v.alive t := by rw [alive, inf.looper]; rfl
  rw [k.set inf.registry.findTransport ha hd (devices_finishConnect hd),
    finish_trusts (k d (List.mem_of_getElem? hd)) inf.registry.findTransport ha]
  simp [Misleads, hd]

theorem detach_trusts : v.Trusts d.detach := by
  unfold Device.detach Trusts
  split <;> simp_all [isOnline]

theorem finishClientConnect_sound (k : v.Sound) (hd : v.devices[i]? = some d)
    (h : v.finishClientConnect i d timedOut = some v') : v'.Sound := by
  have inf := finishClientConnect_informs h
  have ha (t) : v'.alive t = v.alive t := by rw [alive, inf.looper]; rfl
  obtain ⟨status, _, devices⟩ := devices_finishClientConnect hd h
  refine (k.set inf.registry.findTransport ha hd devices).mpr ?_
  split
  case isTrue =>
    exact trusts_congr (k d (List.mem_of_getElem? hd)) inf.registry.findTransport ha rfl rfl rfl
  case isFalse => exact detach_trusts

theorem closeDevice_sound (k : v.Sound) (hd : v.devices[i]? = some d) :
    (v.closeDevice i d).Sound := by
  have inf := closeDevice_informs (v := v) (i := i) (d := d)
  have ha (t) : (v.closeDevice i d).alive t = v.alive t := by rw [alive, inf.looper]; rfl
  exact (k.set inf.registry.findTransport ha hd (devices_closeDevice hd)).mpr detach_trusts

theorem registerTransport_sound (k : v.Sound) (ht : v.tasks = .registerTransport t :: rest) :
    (({ v with tasks := rest } : Server).registerTransport t).Sound ↔ ¬v.Strands (.run os) := by
  have devices := devices_runTask (v := { v with tasks := rest }) (o := os) (.registerTransport t)
  have alive (u) : (({ v with tasks := rest } : Server).registerTransport t).alive u = v.alive u := by
    rw [Server.alive, looper_registerTransport]
    rfl
  by_cases hp : t ∈ v.pendingList
  case neg =>
    have registry := registerTransport_registry (v := { v with tasks := rest }) hp
    exact iff_of_true (k.congr registry.findTransport alive devices) (by simp [Strands, ht, hp])
  case pos =>
    have find (s) : (({ v with tasks := rest } : Server).registerTransport t).findTransport s =
        if v.hasSerial s t then some t else v.findTransport s :=
      (registerTransport_admitted (v := { v with tasks := rest }) hp).findTransport s
    have hf : v.Strands (.run os) ↔ v.alive t = false ∧
        ∃ d ∈ v.devices, d.closed = false ∧ d.listener.online ∧ v.hasSerial d.serial t := by
      simp [Strands, ht, hp]
    rw [hf]
    refine ⟨?_, fun h d hd ho => ?_⟩
    · rintro k' ⟨dead, d, hd, hc, ho, hs⟩
      have := k' d (devices.symm ▸ hd :)
      simp [Trusts, isOnline, find, hs, hc, ho, alive, dead] at this
    · replace hd : d ∈ v.devices := (devices ▸ hd :)
      simp only [isOnline, find] at ho ⊢
      split at ho
      case isTrue hs =>
        rw [if_pos hs, Option.any_some, alive]
        simp only [Bool.and_eq_true, Bool.not_eq_true'] at ho
        have ha := fun dead => h ⟨dead, d, hd, ho.left.left, ho.left.right, hs⟩
        simpa using ha
      case isFalse hs =>
        rw [if_neg hs, funext alive]
        exact k d hd ho

theorem unregisterTransport_sound (wl : v.WellListed) (k : v.Sound)
    (ht : v.tasks = .unregisterTransport t :: rest) :
    (({ v with tasks := rest } : Server).unregisterTransport t).Sound := by
  have deleted : v.Deleted t (({ v with tasks := rest } : Server).unregisterTransport t) :=
    { unregisterTransport_deleted (v := { v with tasks := rest }) with }
  have find (s u) := deleted.findTransport (u := u) wl
    (Registers.wellListed (a := .run {}) (.delete ht deleted) wl) s
  intro d hd ho
  simp only [isOnline, Bool.and_eq_true, Option.isSome_iff_exists] at ho
  have ⟨hc, u, hu⟩ := ho
  have ⟨hu', _⟩ := (find d.serial u).mp hu
  have := k d hd (by simp [isOnline, hc, hu'])
  rw [hu', Option.any_some] at this
  rw [hu, Option.any_some]
  exact this

-- Processing the error of its connection takes a transport offline, and so does an `AUTH` packet; the
-- transport stays in the list, and its devices are not told.
theorem Sound.next (w : v.looper.WF) (wl : v.WellListed) (k : v.Sound) (h : v.next a = some v') :
    v'.Sound ↔ ¬v.Strands a := by
  have ⟨_, m⟩ := next_moves h
  by_cases ha : a.isAside
  case pos =>
    have ⟨devices, links, pending, list⟩ := m.aside ha
    have registry := SameRegistry.of_links pending list links
    refine iff_of_true (k.congr registry.findTransport (fun _ => alive_aside w ha h) devices) ?_
    cases a
    case event | read | acceptListener | startSession | postSession => simp [Strands]
    case installListener | removeListener | removeAllListeners => simp [Strands]
    all_goals cases ha
  case neg =>
    cases m
    case run task rest os ht hr =>
      cases task
      case registerTransport => exact registerTransport_sound k ht
      case handlePacket =>
        refine sound_iff.trans (((sound_iff.mp k).handlePacket w ht h rfl).trans ?_)
        simp [Strands, ht, serves_iff]
      case handleError =>
        refine sound_iff.trans (((sound_iff.mp k).handleError w ht h rfl).trans ?_)
        simp [Strands, ht, serves_iff]
      case unregisterTransport =>
        exact iff_of_true (unregisterTransport_sound wl k ht) (by simp [Strands, ht])
      case startSession =>
        refine iff_of_true (k.congr (fun _ => rfl) (fun t => ?_) rfl) (by simp [Strands, ht])
        exact alive_unless w h (by simp [ht]) (by simp [ht])
    case fail hr =>
      have s := reportError_signals (started_of_running hr)
      exact iff_of_true (k.signals s) (by simp [Strands])
    case kick t => exact iff_of_true (k.signals kickTransport_signals) (by simp [Strands])
    case connect => exact iff_of_true (sound_iff.mpr (sound_iff.mp k).connect) (by simp [Strands])
    case connectDevice i d result hd _ =>
      have finish (o) := sound_iff.symm.trans (finishConnect_sound (o := o) k hd)
      refine sound_iff.trans (((sound_iff.mp k).connectDevice wl hd finish fun _ => rfl).trans ?_)
      cases result <;> simp [Strands]
    case waitForConnection hd ht h =>
      refine (waitForConnection_iff (fun o => finishConnect_sound (o := o) k hd) h).trans ?_
      simp [Strands, hd, ht]
    case finishClientConnect hd _ h =>
      exact iff_of_true (finishClientConnect_sound k hd h) (by simp [Strands])
    case close hd _ => exact iff_of_true (closeDevice_sound k hd) (by simp [Strands])
    all_goals exact absurd rfl ha

theorem isOnline_sound (h : Reachable (fun v a => ¬v.Strands a) v) :
    v.Sound ∧ ∀ a v', v.next a = some v' → (v'.Sound ↔ ¬v.Strands a) := by
  have k : v.Sound := by
    refine Reach.invariant_under (I := Reachable fun v a => ¬v.Strands a)
      (fun _ _ _ p hs r => r.tail p hs) (fun v a v' r hn hs k => ?_) h .refl nofun
    exact (k.next r.wf r.wellListed hs).mpr hn
  exact ⟨k, fun a v' hs => k.next h.wf h.wellListed hs⟩

def isLevel (v : Server) : Action → Bool
  | .run _ =>
    match v.tasks with
    | .handlePacket _ p :: _ => p.kind != some .auth
    | .registerTransport _ :: _ => v.devices.all (!·.listener.online)
    | .handleError _ :: _ => v.devices.all (·.closed)
    | _ => false
  | .connectDevice _ (some serial) => !v.registered serial
  | .waitForConnection _ _ => v.transportList.all v.alive
  | _ => true

theorem not_strands_of_isLevel (v a) (h : isLevel v a) : ¬v.Strands a := by
  unfold Strands
  split
  case h_1 =>
    simp only [isLevel] at h
    split <;> simp_all [Demotes, Serves, isOnline]
  case h_2 => simp_all [isLevel]
  case h_3 =>
    rintro ⟨_, _, _, _, _, _, _, _, _, _, u, hu, dead⟩
    have := List.all_eq_true.mp h u (List.mem_of_find?_eq_some hu)
    exact Bool.false_ne_true (dead.symm.trans this)
  case h_4 => exact id

-- A device gets connected and is closed, which ends its connection.
theorem isOnline_sound_until_close : ∃ v v' : Server, v.next (.run {}) = some v' ∧
    (v.looper.transports 0).connectionState = .device ∧
    (v'.looper.transports 0).connectionState = .offline ∧ v.Sound ∧ v'.Sound := by
  have ⟨v, hv, before, ha, v', hs, after⟩ : ∃ v, Reachable (fun v a => ¬v.Strands a) v ∧
      (v.looper.transports 0).connectionState = .device ∧ isLevel v (.run {}) ∧
      ∃ v' ∈ v.next (.run {}), (v'.looper.transports 0).connectionState = .offline :=
    Reach.exists_of_guarded not_strands_of_isLevel [.connect (ascii "a:1"),
      .connectDevice 0 (some (ascii "a:1")), .run {}, .read 0 .connect, .run {},
      .waitForConnection 0 false, .finishClientConnect 0 false, .close 0] (by decide +kernel)
  have ⟨k, step⟩ := isOnline_sound hv
  exact ⟨v, v', hs, before, after, k, (step _ _ hs).mpr (not_strands_of_isLevel v _ ha)⟩

-- The connection of a device is lost. Its transport is offline but stays in the list, and the device
-- still counts as online.
theorem lost_device_is_online : ∃ v : Server, Reachable (fun _ _ => True) v ∧
    ∃ d ∈ v.devices, v.isOnline d ∧ v.findTransport d.serial = some 0 ∧
      (v.looper.transports 0).connectionState = .offline ∧ v.tasks.length = 0 ∧ ¬v.Sound := by
  have ⟨v, hv, tasks, offline, d, hd, online, find⟩ : ∃ v, Reachable (fun _ _ => True) v ∧
      v.tasks.length = 0 ∧ (v.looper.transports 0).connectionState = .offline ∧
      ∃ d ∈ v.devices, v.isOnline d ∧ v.findTransport d.serial = some 0 :=
    Reach.exists_of_exec [.connect (ascii "a:1"), .connectDevice 0 (some (ascii "a:1")), .run {},
      .read 0 .connect, .run {}, .waitForConnection 0 false, .finishClientConnect 0 false, .fail 0,
      .run {}] (by decide +kernel)
  refine ⟨v, hv, d, hd, online, find, offline, tasks, fun k => ?_⟩
  have := k d hd online
  simp [find, alive, offline, connectionStateIsOnline] at this

end Server

import LibAdb.Machine.Beliefs

-- What is behind a device that `Client::connect` returns.

-- `Client::connect` has been told that the device is online and is about to return it.
def Device.awaited (d : Device) : Bool :=
  d.status.isNone && d.listener.online

namespace Server

variable {v v' : Server} {a : Action} {t u : Tid} {i : Nat} {d d' : Device} {os : Os}
variable {f : Device → Device}

def up (v : Server) (t : Tid) : Bool :=
  v.alive t && (v.link t).any fun l => !l.kicked && l.running

def live (v : Server) (serial : Bytes) : Bool :=
  (v.findTransport serial).any v.up

def Meets (v : Server) (d : Device) : Prop :=
  d.awaited → v.live d.serial

def Honest (v : Server) : Prop :=
  ∀ d ∈ v.devices, v.Meets d

def Awaits (v : Server) (t : Tid) : Prop :=
  ∃ d ∈ v.devices, d.awaited ∧ v.findTransport d.serial = some t

-- The transport with the serial is the one of a device that is about to be returned.
def Topples (v : Server) (serial : Bytes) : Prop :=
  ∃ t, v.findTransport serial = some t ∧ v.Awaits t

-- The connect thread ends with the serial, for a device that was closed, whose transport it then
-- kicks, or for one that is waited for.
def Resolves (v : Server) (i : Nat) (serial : Bytes) : Prop :=
  ∃ d, v.devices[i]? = some d ∧
    if d.closed then v.Topples serial else d.status = none ∧ v.live serial = false

-- The steps that make `Client::connect` return a device without a connection, unless the connection
-- comes back in time.
def Betrays (v : Server) : Action → Prop
  | .run _ =>
    match v.tasks with
    | .handleError t :: _ => v.Awaits t
    | .handlePacket t p :: _ => v.Demotes t p ∧ v.Awaits t
    | _ => False
  | .kick t => v.Awaits t
  | .connectDevice i (some serial) => v.registered serial ∧ v.Resolves i serial
  | .waitForConnection i _ => ∃ d serial t, v.devices[i]? = some d ∧ d.thread = .waiting serial t ∧
      v.established t = some true ∧ (v.looper.transports t).connectionState ≠ .unauthorized ∧
      v.Resolves i serial
  | .finishClientConnect i timedOut => ∃ d status, v.devices[i]? = some d ∧ d.closed = false ∧
      waitUntilOnline d.listener timedOut = some status ∧ status ≠ .ok ∧ v.Topples d.serial
  | .close i => ∃ d, v.devices[i]? = some d ∧ d.closed = false ∧ v.Topples d.serial
  | _ => False

def awaits.belief : Belief where
  holds    := Device.awaited
  linked l := l.any fun l => !l.kicked && l.running
  missing  := false
  online d := by simp [Device.awaited]
  fresh _  := rfl

theorem meets_iff : v.Meets d ↔ v.Backs awaits.belief d := by
  rw [Meets, live, Backs]
  cases v.findTransport d.serial <;> rfl

theorem honest_iff : v.Honest ↔ v.Backed awaits.belief :=
  forall₂_congr fun _ _ => meets_iff

theorem Honest.congr (k : v.Honest) (find : ∀ s, v'.findTransport s = v.findTransport s)
    (h : ∀ t, v'.up t = v.up t) (devices : v'.devices = v.devices) : v'.Honest :=
  honest_iff.mpr ((honest_iff.mp k).congr find h devices)

theorem kicked_of_kick (hl : (v.kick t).link t = some l) : l.kicked := by
  unfold kick at hl
  split at hl
  case isTrue =>
    rw [link_stop, link_modifyLink, if_pos rfl, Option.map_map] at hl
    have ⟨l₀, _, he⟩ := Option.map_eq_some_iff.mp hl
    subst he
    dsimp only [Function.comp]
    split <;> rfl
  case isFalse h => simpa [hl] using h

theorem kickTransport_honest (k : v.Honest) : (v.kickTransport t).Honest ↔ ¬v.Awaits t := by
  have hs := kickTransport_signals (v := v) (t := t)
  have ha (u) : (v.kickTransport t).alive u = v.alive u := by
    rw [hs.eq]
    rfl
  by_cases ht : t ∈ v.transportList
  case pos =>
    refine honest_iff.trans ((honest_iff.mp k).dead hs.registry.findTransport (by rw [hs.eq]) ?_
      fun u hu => ?_)
    · change (v.kickTransport t).up t = false
      cases hl : (v.kickTransport t).link t
      case none => simp [up, hl]
      case some l =>
        have : l.kicked := by
          rw [kickTransport, if_pos ht] at hl
          exact kicked_of_kick hl
        simp [up, hl, this]
    · rw [carries, ha, hs.other u hu]
      rfl
  case neg =>
    rw [kickTransport, if_neg ht]
    refine iff_of_true k ?_
    rintro ⟨_, _, _, hf⟩
    exact ht (List.mem_of_find?_eq_some hf)

theorem kickFound_honest (k : v.Honest) : (v.kickFound serial).Honest ↔ ¬v.Topples serial := by
  unfold kickFound
  split
  case h_1 hf => exact iff_of_true k (by simp [Topples, hf])
  case h_2 t hf => simp [kickTransport_honest k, Topples, hf]

theorem honest_modifyDevice (hd : v.devices[i]? = some d) (h : v.Meets (f d) ↔ v.Meets d) :
    (v.modifyDevice i f).Honest ↔ v.Honest := by
  rw [Honest, devices_modifyDevice hd]
  exact forall_mem_set_congr hd h

theorem topples_modifyDevice (hd : v.devices[i]? = some d) (awaited : (f d).awaited = d.awaited)
    (serial : (f d).serial = d.serial) : (v.modifyDevice i f).Topples s ↔ v.Topples s := by
  have awaits (t) : (v.modifyDevice i f).Awaits t ↔ v.Awaits t := by
    rw [← not_iff_not]
    simp only [Awaits, devices_modifyDevice hd, not_exists, not_and]
    refine forall_mem_set_congr (Q := fun d => d.awaited → ¬v.findTransport d.serial = some t) hd ?_
    rw [awaited, serial]
  exact exists_congr fun t => and_congr_right fun _ => awaits t

theorem not_awaited (hs : d.status.isSome) : d.awaited = false := by
  simp [Device.awaited, Option.isNone_eq_false_iff.mpr hs]

theorem meets_of_not_awaited (h : d.awaited = false) : v.Meets d := by
  simp [Meets, h]

theorem closeDevice_honest (k : v.Honest) (hd : v.devices[i]? = some d) (hs : d.status.isSome) :
    (v.closeDevice i d).Honest ↔ ¬(d.closed = false ∧ v.Topples d.serial) := by
  unfold closeDevice
  split
  case isTrue hc => exact iff_of_true k (by simp [hc])
  case isFalse hc =>
    rw [honest_modifyDevice (devices_kickFound ▸ hd), kickFound_honest k]
    · simp [hc]
    · exact iff_of_true (meets_of_not_awaited (not_awaited hs)) (meets_of_not_awaited (not_awaited hs))

theorem finishConnect_honest (k : v.Honest) (hd : v.devices[i]? = some d) :
    (v.finishConnect i d o).Honest ↔ ¬∃ s, o = some s ∧ v.Resolves i s := by
  have hd₀ := device_modifyDevice (f := ({ · with thread := .finished })) hd
  have k₀ : (v.modifyDevice i ({ · with thread := .finished })).Honest :=
    (honest_modifyDevice hd Iff.rfl).mpr k
  cases o
  case none =>
    refine iff_of_true ?_ (by simp)
    simp only [finishConnect]
    split
    case isTrue => exact k₀
    case isFalse => exact (honest_modifyDevice hd₀ Iff.rfl).mpr k₀
  case some s =>
    by_cases hc : d.closed
    case pos =>
      have topples := topples_modifyDevice (s := s) (f := ({ · with thread := .finished })) hd rfl rfl
      simp [finishConnect, Resolves, hd, hc, kickFound_honest k₀, topples]
    case neg =>
      have find := (finishConnect_informs (v := v) (i := i) (d := d) (o := some s)).registry
      have up (t) : (v.finishConnect i d (some s)).up t = v.up t := by
        simp only [finishConnect, if_neg hc]
        rfl
      rw [honest_iff, (honest_iff.mp k).set find.findTransport up hd (devices_finishConnect hd),
        ← meets_iff]
      simp only [Meets, live, find.findTransport, funext up, Resolves, hd]
      cases hs : d.status <;>
        simp [Device.finish, Device.awaited, FacadeListener.onConnectionStateChanged, hs, hc]

theorem finishClientConnect_honest (k : v.Honest) (hd : v.devices[i]? = some d)
    (h : v.finishClientConnect i d timedOut = some v') :
    v'.Honest ↔ ¬v.Betrays (.finishClientConnect i timedOut) := by
  have ⟨status, hw, he⟩ := Option.map_eq_some_iff.mp h
  have hf : v.Betrays (.finishClientConnect i timedOut) ↔
      status ≠ .ok ∧ d.closed = false ∧ v.Topples d.serial := by
    simp only [Betrays, hd, Option.some.injEq]
    grind
  have hd₀ := device_modifyDevice (f := ({ · with status := some status })) hd
  have k₀ : (v.modifyDevice i ({ · with status := some status })).Honest := by
    refine (honest_modifyDevice hd ?_).mpr k
    exact iff_of_true (meets_of_not_awaited (not_awaited rfl)) (k d (List.mem_of_getElem? hd))
  subst he
  dsimp only
  split
  case isTrue hs => exact iff_of_true k₀ (by simp [hf, hs])
  case isFalse hs =>
    have offline : d.awaited = false := by
      grind [waitUntilOnline, Device.awaited]
    have topples := topples_modifyDevice (s := d.serial) (f := ({ · with status := some status })) hd
      ((not_awaited rfl).trans offline.symm) rfl
    refine (closeDevice_honest k₀ hd₀ rfl).trans ?_
    simp [hf, hs, topples]

theorem Honest.mono (k : v.Honest) (devices : v'.devices = v.devices)
    (h : ∀ s t, v.findTransport s = some t → v.up t → v'.findTransport s = some t ∧ v'.up t) :
    v'.Honest := by
  intro d hd ha
  have ⟨t, hf, hu⟩ := (Option.any_eq_true _ _).mp (k d (devices ▸ hd) ha)
  exact (Option.any_eq_true _ _).mpr ⟨t, h _ t hf hu⟩

theorem registerTransport_honest (wl : v.WellListed) (k : v.Honest) :
    (({ v with tasks := rest } : Server).registerTransport t).Honest := by
  have devices := devices_runTask (v := { v with tasks := rest }) (o := {}) (.registerTransport t)
  refine k.mono devices fun s u hf hu => ⟨?_, ?_⟩
  · by_cases hp : t ∈ v.pendingList
    case neg =>
      have registry := registerTransport_registry (v := { v with tasks := rest }) hp
      exact (registry.findTransport s).trans hf
    case pos =>
      have find := (registerTransport_admitted (v := { v with tasks := rest }) hp).findTransport s
      refine find.trans ?_
      split
      case isTrue hs =>
        obtain ⟨hu, hs'⟩ := (findTransport_eq_some wl).mp hf
        rw [wl.distinct s t (by simp [listed, hp]) u (by simp [listed, hu]) hs hs']
      case isFalse => exact hf
  · obtain ⟨alive, linked⟩ := Bool.and_eq_true_iff.mp hu
    refine Bool.and_eq_true_iff.mpr ⟨?_, ?_⟩
    · rw [Server.alive, looper_registerTransport]
      exact alive
    · obtain ⟨l, hl, hr⟩ := (Option.any_eq_true _ _).mp linked
      have hl : v.links.get u = some l := hl
      simp only [link, links_registerTransport, Store.get_modify]
      split
      case isTrue h => simp_all [Link.running]
      case isFalse => simpa [hl] using hr

theorem unregisterTransport_honest (wl : v.WellListed) (timely : ∀ task ∈ v.tasks, v.Timely task)
    (k : v.Honest) (ht : v.tasks = .unregisterTransport t :: rest) :
    (({ v with tasks := rest } : Server).unregisterTransport t).Honest := by
  have deleted : v.Deleted t (({ v with tasks := rest } : Server).unregisterTransport t) :=
    { unregisterTransport_deleted (v := { v with tasks := rest }) with }
  have find (s u) := deleted.findTransport (u := u) wl
    (Registers.wellListed (a := .run {}) (.delete ht deleted) wl) s
  refine k.mono rfl fun s u hf hu => ?_
  have hne : u ≠ t := by
    rintro rfl
    have ⟨l, hl, hr⟩ := (Option.any_eq_true _ _).mp (Bool.and_eq_true_iff.mp hu).right
    have ⟨_, kicked⟩ := timely (.unregisterTransport u) (ht ▸ .head _)
    simp [(kicked l hl).left] at hr
  refine ⟨(find s u).mpr ⟨hf, hne⟩, ?_⟩
  have : (({ v with tasks := rest } : Server).unregisterTransport t).link u = v.link u :=
    Store.get_free_of_ne hne
  rw [up, this]
  exact hu

theorem fail_honest (k : v.Honest) (h : (v.link t).any (·.running)) : (v.reportError t).Honest := by
  have s := reportError_signals (started_of_running h)
  refine k.congr s.registry.findTransport (fun u => ?_) (by rw [s.eq])
  have alive : (v.reportError t).alive u = v.alive u := by rw [s.eq]; rfl
  by_cases hu : u = t
  case pos =>
    subst hu
    rw [up, alive, link_reportError, Option.any_map]
    rfl
  case neg =>
    rw [up, alive, s.other u hu]
    rfl

theorem Honest.next (w : v.looper.WF) (wl : v.WellListed)
    (timely : ∀ task ∈ v.tasks, v.Timely task) (k : v.Honest) (h : v.next a = some v') :
    v'.Honest ↔ ¬v.Betrays a := by
  have ⟨_, m⟩ := next_moves h
  by_cases ha : a.isAside
  case pos =>
    have ⟨devices, links, pending, list⟩ := m.aside ha
    have registry := SameRegistry.of_links pending list links
    refine iff_of_true (k.congr registry.findTransport (fun t => ?_) devices) ?_
    · rw [up, alive_aside w ha h, link, links]
      rfl
    · cases a
      case event | read | acceptListener | startSession | postSession => simp [Betrays]
      case installListener | removeListener | removeAllListeners => simp [Betrays]
      all_goals cases ha
  case neg =>
    cases m
    case run task rest os ht hr =>
      cases task
      case registerTransport =>
        exact iff_of_true (registerTransport_honest wl k) (by simp [Betrays, ht])
      case handlePacket =>
        refine honest_iff.trans (((honest_iff.mp k).handlePacket w ht h rfl).trans ?_)
        simp [Betrays, ht, Awaits, Relies, awaits.belief]
      case handleError =>
        refine honest_iff.trans (((honest_iff.mp k).handleError w ht h rfl).trans ?_)
        simp [Betrays, ht, Awaits, Relies, awaits.belief]
      case unregisterTransport =>
        exact iff_of_true (unregisterTransport_honest wl timely k ht) (by simp [Betrays, ht])
      case startSession =>
        refine iff_of_true (k.congr (fun _ => rfl) (fun t => ?_) rfl) (by simp [Betrays, ht])
        rw [up, alive_unless w h (by simp [ht]) (by simp [ht])]
        rfl
    case fail hr => exact iff_of_true (fail_honest k hr) (by simp [Betrays])
    case kick t => exact kickTransport_honest k
    case connect => exact iff_of_true (honest_iff.mpr (honest_iff.mp k).connect) (by simp [Betrays])
    case connectDevice i d result hd _ =>
      have finish (o) := honest_iff.symm.trans (finishConnect_honest (o := o) k hd)
      refine honest_iff.trans (((honest_iff.mp k).connectDevice wl hd finish fun _ => rfl).trans ?_)
      cases result <;> simp [Betrays]
    case waitForConnection hd ht h =>
      refine (waitForConnection_iff (fun o => finishConnect_honest (o := o) k hd) h).trans ?_
      simp [Betrays, hd, ht]
    case finishClientConnect hd _ h => exact finishClientConnect_honest k hd h
    case close hd hs => simpa [Betrays, hd] using closeDevice_honest k hd (by simp [hs])
    all_goals exact absurd rfl ha

theorem Reachable.honest (h : Reachable (fun v a => ¬v.Betrays a) v) : v.Honest := by
  refine Reach.invariant_under (I := Reachable fun v a => ¬v.Betrays a)
    (fun _ _ _ p hs r => r.tail p hs) (fun v a v' r hn hs k => ?_) h .refl nofun
  exact (k.next r.wf r.wellListed r.timely hs).mpr hn

theorem live_of_finishClientConnect (k : v.Honest) (hd : v.devices[i]? = some d)
    (hs : d.status = none) (h : v.finishClientConnect i d timedOut = some v')
    (hd' : v'.devices[i]? = some d') (ok : d'.status = some .ok) : v'.live d'.serial := by
  have ⟨hi, _⟩ := List.getElem?_eq_some_iff.mp hd
  have ⟨status, hw, devices⟩ := devices_finishClientConnect hd h
  rw [devices, List.getElem?_set_self hi, Option.some.injEq] at hd'
  subst hd'
  by_cases hok : status = .ok
  case pos =>
    have online : d.listener.online := by grind [waitUntilOnline]
    have awaited : d.awaited := by simp [Device.awaited, hs, online]
    have he : v' = v.modifyDevice i ({ · with status := some .ok }) := by
      simpa [finishClientConnect, hw, hok] using h.symm
    simp only [hok, if_true, he]
    exact k d (List.mem_of_getElem? hd) awaited
  case neg =>
    rw [if_neg hok, Device.detach] at ok
    split at ok <;> exact absurd (Option.some.inj ok) hok

theorem connect_returns_live (h : Reachable (fun v a => ¬v.Betrays a) v) :
    (∀ i timedOut v' d, v.next (.finishClientConnect i timedOut) = some v' →
      v'.devices[i]? = some d → d.status = some .ok → v'.live d.serial) ∧
    ∀ a v', v.next a = some v' → (v'.Honest ↔ ¬v.Betrays a) := by
  refine ⟨fun i timedOut v' d' hs hd' ok => ?_, fun a v' hs => ?_⟩
  · have ⟨_, m⟩ := next_moves hs
    cases m
    case finishClientConnect d hn hd hf =>
      exact live_of_finishClientConnect h.honest hd hn hf hd' ok
  · exact h.honest.next h.wf h.wellListed h.timely hs

def isLoyal (v : Server) : Action → Bool
  | .run _ =>
    match v.tasks with
    | .handlePacket _ p :: _ => p.kind != some .auth
    | .registerTransport _ :: _ => true
    | _ => false
  | .connectDevice _ (some serial) => !v.registered serial
  | .waitForConnection _ _ =>
    v.devices.all fun d => !d.closed &&
      match d.thread with
      | .waiting serial _ => v.live serial
      | _ => false
  | .kick _ | .finishClientConnect _ _ | .close _ => false
  | _ => true

theorem not_betrays_of_isLoyal (v a) (h : isLoyal v a) : ¬v.Betrays a := by
  unfold Betrays
  split
  case h_1 =>
    simp only [isLoyal] at h
    split <;> simp_all [Demotes]
  case h_3 => simp_all [isLoyal]
  case h_4 =>
    rintro ⟨d, serial, t, hd, ht, _, _, d', hd', hr⟩
    have := List.all_eq_true.mp h d (List.mem_of_getElem? hd)
    simp_all
  case h_7 => exact id
  all_goals cases h

theorem connect_returns_live_once : ∃ v v' : Server, ∃ d,
    v.next (.finishClientConnect 0 false) = some v' ∧ v'.devices = [d] ∧ d.status = some .ok ∧
    v'.live d.serial := by
  have ⟨v, hv, v', hs, single, d, hd, ok⟩ : ∃ v, Reachable (fun v a => ¬v.Betrays a) v ∧
      ∃ v' ∈ v.next (.finishClientConnect 0 false), v'.devices.length = 1 ∧
        ∃ d ∈ v'.devices[0]?, d.status = some .ok :=
    Reach.exists_of_guarded not_betrays_of_isLoyal [.connect (ascii "a:1"),
      .connectDevice 0 (some (ascii "a:1")), .run {}, .read 0 .connect, .run {},
      .waitForConnection 0 false] (by decide +kernel)
  obtain ⟨live, _⟩ := connect_returns_live hv
  obtain ⟨e, he⟩ := List.length_eq_one_iff.mp single
  cases (he ▸ hd :)
  exact ⟨v, v', d, hs, he, ok, live 0 false v' d hs hd ok⟩

-- A device whose connection was lost is closed and connected again. Closing it does not delete its
-- transport, since nobody learns that a connection that was stopped has been kicked, and for the new
-- device the old transport counts as connected.
theorem reconnect_returns_dead_device : ∃ v v' : Server, ∃ d, Reachable (fun _ _ => True) v ∧
    v.next (.finishClientConnect 1 false) = some v' ∧ v'.devices[1]? = some d ∧
    d.status = some .ok ∧ v'.findTransport d.serial = some 0 ∧
    v'.link 0 = some ⟨d.serial, true, true, true, true⟩ ∧
    (v'.looper.transports 0).connectionState = .offline ∧ v'.live d.serial = false := by
  have ⟨v, hv, v', hs, d, rest⟩ : ∃ v, Reachable (fun _ _ => True) v ∧
      ∃ v' ∈ v.next (.finishClientConnect 1 false), ∃ d ∈ v'.devices[1]?,
        d.status = some .ok ∧ v'.findTransport d.serial = some 0 ∧
        v'.link 0 = some ⟨d.serial, true, true, true, true⟩ ∧
        (v'.looper.transports 0).connectionState = .offline ∧ v'.live d.serial = false :=
    Reach.exists_of_exec [.connect (ascii "a:1"), .connectDevice 0 (some (ascii "a:1")), .run {},
      .read 0 .connect, .run {}, .waitForConnection 0 false, .finishClientConnect 0 false, .fail 0,
      .run {}, .close 0, .connect (ascii "a:1"), .connectDevice 1 (some (ascii "a:1"))]
      (by decide +kernel)
  exact ⟨v, v', d, hv, hs, rest⟩

end Server

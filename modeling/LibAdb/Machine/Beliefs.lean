import LibAdb.Machine.Tasks

-- What a device believes about its transport, the one that is found for its serial: that it is
-- online, and more about its link. `missing` is whether the belief is right without a transport.

structure Belief where
  holds   : Device → Bool
  linked  : Option Link → Bool
  missing : Bool
  online  : ∀ d, holds d → d.listener.online
  fresh   : ∀ serial, linked (some { serial }) = linked none

namespace Server

variable {v v' : Server} {B : Belief} {t u : Tid} {i : Nat} {d d' : Device} {os : Os}

def carries (v : Server) (B : Belief) (t : Tid) : Bool :=
  v.alive t && B.linked (v.link t)

def Backs (v : Server) (B : Belief) (d : Device) : Prop :=
  B.holds d → (v.findTransport d.serial).elim B.missing (v.carries B) = true

def Backed (v : Server) (B : Belief) : Prop :=
  ∀ d ∈ v.devices, v.Backs B d

def Relies (v : Server) (B : Belief) (t : Tid) : Prop :=
  ∃ d ∈ v.devices, B.holds d ∧ v.findTransport d.serial = some t

theorem backs_congr (find : ∀ s, v'.findTransport s = v.findTransport s)
    (h : ∀ t, v'.carries B t = v.carries B t) (holds : B.holds d' = B.holds d)
    (serial : d'.serial = d.serial) : v'.Backs B d' ↔ v.Backs B d := by
  have : v'.carries B = v.carries B := funext h
  simp only [Backs, find, this, holds, serial]

namespace Backed

theorem congr (k : v.Backed B) (find : ∀ s, v'.findTransport s = v.findTransport s)
    (h : ∀ t, v'.carries B t = v.carries B t) (devices : v'.devices = v.devices) : v'.Backed B :=
  fun d hd => (backs_congr find h rfl rfl).mpr (k d (devices ▸ hd))

theorem set (k : v.Backed B) (find : ∀ s, v'.findTransport s = v.findTransport s)
    (h : ∀ t, v'.carries B t = v.carries B t) (hd : v.devices[i]? = some d)
    (devices : v'.devices = v.devices.set i d') : v'.Backed B ↔ v'.Backs B d' := by
  rw [Backed, devices]
  exact forall_mem_set hd fun d hd => (backs_congr find h rfl rfl).mpr (k d hd)

theorem mono (k : v.Backed B) (find : ∀ s, v'.findTransport s = v.findTransport s)
    (h : ∀ t, v.carries B t → v'.carries B t) (devices : v'.devices = v.devices) :
    v'.Backed B := by
  intro d hd hb
  have backs := k d (devices ▸ hd) hb
  rw [find]
  cases hf : v.findTransport d.serial
  case none => rwa [hf] at backs
  case some t =>
    rw [hf] at backs
    exact h t backs

theorem dead (k : v.Backed B) (find : ∀ s, v'.findTransport s = v.findTransport s)
    (devices : v'.devices = v.devices) (ht : v'.carries B t = false)
    (hu : ∀ u, u ≠ t → v'.carries B u = v.carries B u) : v'.Backed B ↔ ¬v.Relies B t := by
  simp only [Backed, Backs, find, devices]
  refine ⟨fun k' ⟨d, hd, hb, hf⟩ => ?_, fun h d hd hb => ?_⟩
  · have := k' d hd hb
    simp [hf, ht] at this
  · have backs := k d hd hb
    cases hf : v.findTransport d.serial
    case none => rwa [hf] at backs
    case some u =>
      rw [hf] at backs
      exact (hu u fun he => h ⟨d, hd, hb, he ▸ hf⟩).trans backs

theorem connect (k : v.Backed B) : (v.connect address).Backed B := by
  unfold Server.connect
  split
  case isTrue => exact k
  case isFalse =>
    intro d hd
    rcases List.mem_append.mp hd with hd | hd
    · exact k d hd
    · cases List.mem_singleton.mp hd
      exact fun hb => absurd (B.online _ hb) (by simp [FacadeListener.onConnectionStateChanged])

theorem handlePacket (w : v.looper.WF) (k : v.Backed B) (ht : v.tasks = .handlePacket t p :: rest)
    (hs : v.next (.run os) = some v')
    (he : v' = ({ v with tasks := rest } : Server).handlePacket t p os) :
    v'.Backed B ↔ ¬(v.Demotes t p ∧ v.Relies B t) := by
  have find (s) : v'.findTransport s = v.findTransport s :=
    he ▸ (handlePacket_registry (v := { v with tasks := rest })).findTransport s
  have devices : v'.devices = v.devices := by rw [he, handlePacket_frame]
  have links (u) : v'.link u = v.link u := by rw [he, handlePacket_frame]; rfl
  by_cases hk : v.Demotes t p
  case pos =>
    have dead : v'.alive t = false := he ▸ not_alive_of_demotes (v := { v with tasks := rest }) hk
    have other (u) (hu : u ≠ t) : v'.carries B u = v.carries B u := by
      rw [carries, alive_unless w hs (by simp [ht, hu.symm]) (by simp [ht]), links]
      rfl
    rw [k.dead find devices (by simp [carries, dead]) other]
    simp [hk]
  case neg =>
    refine iff_of_true (k.mono find (fun u hu => ?_) devices) (by simp [hk])
    have ⟨alive, linked⟩ := Bool.and_eq_true_iff.mp hu
    exact Bool.and_eq_true_iff.mpr ⟨alive_of_not_demotes w ht hs he hk alive, links u ▸ linked⟩

theorem handleError (w : v.looper.WF) (k : v.Backed B) (ht : v.tasks = .handleError t :: rest)
    (hs : v.next (.run os) = some v')
    (he : v' = ({ v with tasks := rest } : Server).handleError t) :
    v'.Backed B ↔ ¬v.Relies B t := by
  have find (s) : v'.findTransport s = v.findTransport s :=
    he ▸ (handleError_registry (v := { v with tasks := rest })).findTransport s
  have devices : v'.devices = v.devices :=
    he ▸ devices_runTask (v := { v with tasks := rest }) (o := os) (.handleError t)
  have dead : v'.alive t = false := he ▸ not_alive_handleError (v := { v with tasks := rest }) w
  refine k.dead find devices (by simp [carries, dead]) fun u hu => ?_
  rw [carries, alive_unless w hs (by simp [ht]) (by simp [ht, hu.symm]), he, link_handleError_of_ne hu]
  rfl

theorem connectDevice (wl : v.WellListed) (k : v.Backed B) (hd : v.devices[i]? = some d)
    {Bad : Bytes → Prop}
    (finish : ∀ o, (v.finishConnect i d o).Backed B ↔ ¬∃ s, o = some s ∧ Bad s)
    (waits : ∀ thread, B.holds { d with thread } = B.holds d) :
    (v.connectDevice i d result).Backed B ↔ ¬∃ s, result = some s ∧ v.registered s ∧ Bad s := by
  cases result
  case none => exact (finish none).trans (by simp)
  case some serial =>
    by_cases h : v.registered serial
    case pos =>
      rw [connectDevice_of_registered h]
      exact (finish _).trans (by simp [h])
    case neg =>
      have find := (connectDevice_enrolled (i := i) (d := d) h).findTransport wl
      have carries (t) : (v.connectDevice i d (some serial)).carries B t = v.carries B t := by
        rw [connectDevice_of_not_registered h]
        simp only [Server.carries, link, modifyDevice, post, Store.get_alloc]
        split
        case isTrue ht =>
          rw [ht, B.fresh, Store.get_next]
          rfl
        case isFalse => rfl
      rw [connectDevice_of_not_registered h] at find carries ⊢
      refine iff_of_true ((k.set find carries hd (devices_modifyDevice hd)).mpr ?_) (by simp [h])
      exact (backs_congr find carries (waits (.waiting ..)) rfl).mpr (k d (List.mem_of_getElem? hd))

end Backed

theorem waitForConnection_iff {X : Server → Prop} {Bad : Bytes → Prop}
    (finish : ∀ o, X (v.finishConnect i d o) ↔ ¬∃ s, o = some s ∧ Bad s)
    (h : v.waitForConnection i d serial t timedOut = some v') :
    X v' ↔ ¬(v.established t = some true ∧
      (v.looper.transports t).connectionState ≠ .unauthorized ∧ Bad serial) := by
  unfold waitForConnection at h
  split at h
  case h_1 he =>
    split at h <;> cases h
    case isTrue hs => exact (finish none).trans (by simp [he, hs])
    case isFalse hs => exact (finish (some serial)).trans (by simp [he, hs])
  case h_2 he =>
    cases h
    exact (finish none).trans (by simp [he])
  case h_3 he =>
    split at h <;> cases h
    exact (finish none).trans (by simp [he])

end Server

import LibAdb.Machine.Calls

-- What the steps do with the devices and the registry.

namespace Call

def unplugs (i : Nat) : Call → Bool
  | .close j (.device .mark) _ | .stopDevice j .mark _ => i == j
  | _ => false

end Call

namespace Client

variable {c c' : Client} {call call' : Call}

def device (c : Client) (i : Nat) : Option AdbDevice :=
  (c.impls[i]?).bind (·.device)

section

variable {f : DeviceImpl → DeviceImpl} {g : AdbDevice → AdbDevice}

theorem device_modifyImpl (h : ∀ d, (f d).device = d.device) :
    (c.modifyImpl j f).device i = c.device i := by
  simp only [device, impls_modifyImpl]
  split
  · cases c.impls[i]? <;> simp [h]
  · rfl

theorem device_modifyLife : (c.modifyImpl j ({ · with life })).device i = c.device i :=
  device_modifyImpl fun _ => rfl

theorem device_modifyDevice :
    (c.modifyDevice j g).device i = if j = i then (c.device i).map g else c.device i := by
  simp only [device, modifyDevice, impls_modifyImpl]
  split
  · cases c.impls[i]? <;> simp
  · rfl

theorem device_append (h : d.device = none) :
    device { c with impls := c.impls ++ [d] } i = c.device i := by
  simp only [device, List.getElem?_append]
  split
  case isTrue => rfl
  case isFalse hi =>
    rw [List.getElem?_eq_none (Nat.le_of_not_lt hi), List.getElem?_singleton]
    split <;> simp [h]

end

inductive DeviceMoves (c c' : Client) (call : Call) (i : Nat) : Prop
  | same (h : c'.device i = c.device i)
  | register (hc : call = .register i) (hd : c.impls[i]? = some d)
    (hr : c.registryHeld = false) (hn : c.hasDevice d.addressKey = false)
    (h : c'.device i = some { serial := d.addressKey })
  | close (hc : call.unplugs i) (hd : c.device i = some e) (hn : e.closed = false)
    (h : c'.device i = some { e with closed := true })

theorem device_eq (hd : c.impls[i]? = some d) (he : d.device = some e) : c.device i = some e := by
  simp [device, hd, he]

theorem DeviceSteps.device (h : DeviceSteps c j e p c' o) (he : c.device j = some e) :
    c'.device i = c.device i ∨
      p = .mark ∧ j = i ∧ e.closed = false ∧ c'.device i = some { e with closed := true } := by
  cases h
  case mark h =>
    rw [device_modifyDevice]
    split
    case isTrue hj =>
      subst hj
      rw [he]
      exact .inr ⟨rfl, rfl, h, rfl⟩
    case isFalse => exact .inl rfl
  case notify => exact .inl (device_modifyImpl fun _ => rfl)
  all_goals exact .inl rfl

theorem DeviceSteps.device_moves (h : DeviceSteps c j e p c' o) (he : c.device j = some e)
    (hc : p = .mark → j = i → call.unplugs i) : DeviceMoves c c' call i := by
  rcases h.device (i := i) he with hs | ⟨rfl, rfl, hn, hs⟩
  case inl => exact .same hs
  case inr => exact .close (hc rfl rfl) he hn hs

theorem Steps.device_moves (h : Steps c call c' call') : DeviceMoves c c' call i := by
  cases h
  case build => exact .same (device_append rfl)
  case device hd he hs | stopDevice hd he hs =>
    exact hs.device_moves (device_eq hd he) fun hp hj => by simp [hp, hj, Call.unplugs]
  case register j d hd hr hn =>
    by_cases hj : j = i
    case pos =>
      subst hj
      exact .register rfl hd hr hn (by simp [Client.device, impls_modifyImpl, hd])
    case neg => exact .same (by simp [Client.device, impls_modifyImpl, hj])
  case busy | lock | mark | release | unlock | discard | destroyed =>
    exact .same (device_modifyImpl fun _ => rfl)
  case remember => exact .same (device_modifyLife (c := c))
  all_goals exact .same rfl

theorem device_goTo (he : c.device j = some e) :
    (c.goTo j stage).device i = if j = i then some { e with thread := stage } else c.device i := by
  rw [goTo, device_modifyDevice]
  split
  case isTrue hj =>
    subst hj
    rw [he]
    rfl
  case isFalse => rfl

theorem ThreadSteps.device (h : ThreadSteps c j e c') (he : c.device j = some e) :
    ∃ stage, (∀ t, stage = .kicking t → c.findTransport e.serial = some t) ∧
      ∀ i, c'.device i = if j = i then some { e with thread := stage } else c.device i := by
  cases h
  case report =>
    refine ⟨.finished, nofun, fun i => ?_⟩
    rw [device_goTo (e := e)]
    all_goals rw [device_modifyImpl]
    · exact fun _ => rfl
    · exact he
    · exact fun _ => rfl
  case found t _ ht =>
    refine ⟨.kicking t, fun u hu => ?_, fun i => device_goTo he⟩
    cases hu
    exact ht
  all_goals
    refine ⟨_, ?_, fun i => device_goTo he⟩
    nofun

theorem ThreadSteps.unfinished (h : ThreadSteps c i e c') : e.thread ≠ .finished := by
  cases h <;> simp_all

inductive RegistryMoves (c c' : Client) (call : Call) : Prop
  | same (h : c'.registry = c.registry)
  | register (hc : call = .register i) (hd : c.impls[i]? = some d) (hr : c.registryHeld = false)
    (hn : c.hasDevice d.addressKey = false) (h : c'.registry = c.registry ++ [(d.addressKey, i)])
    (he : c'.device i = some { serial := d.addressKey })
  | unregister (hc : call = .close i .unregister after) (hd : c.impls[i]? = some d)
    (hr : c.registryHeld = false) (h : c'.registry = c.registry.filter (· != (d.addressKey, i)))
  | clear (hc : call = .stopEach []) (h : c'.registry = [])

theorem Within.registry (h : c.Within c') : c'.registry = c.registry := by
  rw [h.frame]

theorem Within.registryHeld (h : c.Within c') : c'.registryHeld = c.registryHeld := by
  rw [h.frame]

theorem Within.freed (h : c.Within c') : c'.freed = c.freed := by
  rw [h.frame]

theorem Steps.registry_moves (h : Steps c call c' call') : RegistryMoves c c' call := by
  cases h
  case register hd hr hn =>
    exact .register rfl hd hr hn rfl (by simp [Client.device, impls_modifyImpl, hd])
  case unregister hd hr => exact .unregister rfl hd hr rfl
  case clear => exact .clear rfl rfl
  case device hs | stopDevice hs => exact .same hs.within.registry
  all_goals exact .same rfl

def isPlugged (c : Client) (i : Nat) : Bool :=
  (c.device i).any (!·.closed)

theorem isPlugged_congr (h : c'.device i = c.device i) : c'.isPlugged i = c.isPlugged i := by
  simp only [isPlugged, h]

def key (c : Client) (i : Nat) : Option Bytes :=
  (c.impls[i]?).map (·.addressKey)

theorem key_modifyImpl {f : DeviceImpl → DeviceImpl} (h : ∀ d, (f d).addressKey = d.addressKey) :
    (c.modifyImpl j f).key i = c.key i := by
  simp only [key, impls_modifyImpl]
  split
  · cases c.impls[i]? <;> simp [h]
  · rfl

theorem Within.key (h : c.Within c') : c'.key i = c.key i := by
  have view (l : List DeviceImpl) :
      (l[i]?).map (·.addressKey) = ((l.map own)[i]?).map (·.addressKey) := by
    rw [List.getElem?_map]
    cases l[i]? <;> rfl
  simp only [Client.key]
  rw [view, view c.impls, h.impls]

theorem Steps.key (h : Steps c call c' call') (hi : c.key i = some a) : c'.key i = some a := by
  cases h
  case build =>
    have ⟨d, hd, ha⟩ := Option.map_eq_some_iff.mp hi
    have hl := (List.getElem?_eq_some_iff.mp hd).choose
    simp [Client.key, List.getElem?_append_left hl, hd, ha]
  case device hs | stopDevice hs => rw [hs.within.key, hi]
  case remember j =>
    have kept : (c.modifyImpl j ({ · with life := .alive })).key i = c.key i :=
      key_modifyImpl fun _ => rfl
    exact kept.trans hi
  case busy | register | lock | mark | release | unlock | discard | destroyed =>
    refine Eq.trans ?_ hi
    exact key_modifyImpl fun _ => rfl
  all_goals exact hi

-- The registry has one entry for an address, and it is a device of this address.
structure Registered (c : Client) : Prop where
  unique  : (c.registry.map Prod.fst).Nodup
  entries : ∀ e ∈ c.registry, c.key e.2 = some e.1 ∧ (c.device e.2).isSome
  serials : c.device i = some d → c.key i = some d.serial

theorem DeviceMoves.isSome (h : DeviceMoves c c' call i) (hi : (c.device i).isSome) :
    (c'.device i).isSome := by
  cases h
  case same h => rwa [h]
  case register h | close h => simp [h]

theorem not_hasDevice (h : c.hasDevice a = false) : a ∉ c.registry.map Prod.fst := by
  simp only [hasDevice, List.any_eq_false, beq_iff_eq] at h
  intro ha
  have ⟨e, he, hae⟩ := List.mem_map.mp ha
  exact h e he hae

namespace Registered

theorem steps (h : Registered c) (hs : Steps c call c' call') : Registered c' where
  unique := by
    cases hs.registry_moves
    case same hr => exact hr ▸ h.unique
    case register hn hr _ =>
      rw [hr, List.map_append]
      exact List.nodup_append_comm.mp (List.nodup_cons.mpr ⟨not_hasDevice hn, h.unique⟩)
    case unregister hr =>
      rw [hr]
      exact h.unique.sublist (List.filter_sublist.map _)
    case clear hr => simp [hr]
  entries := by
    have keep (e) (he : e ∈ c.registry) : c'.key e.2 = some e.1 ∧ (c'.device e.2).isSome :=
      ⟨hs.key (h.entries e he).left, hs.device_moves.isSome (h.entries e he).right⟩
    cases hs.registry_moves
    case same hr => exact hr ▸ keep
    case register hd _ _ hr he =>
      rw [hr]
      refine List.forall_mem_append.mpr ⟨keep, List.forall_mem_singleton.mpr ⟨?_, by simp [he]⟩⟩
      exact hs.key (by simp [key, hd])
    case unregister hr =>
      rw [hr]
      exact fun e he => keep e (List.mem_filter.mp he).left
    case clear hr => simp [hr]
  serials {i d} hd := by
    cases hs.device_moves (i := i)
    case same hi => exact hs.key (h.serials (hi ▸ hd))
    case register hk _ _ hi =>
      cases hd.symm.trans hi
      exact hs.key (by simp [key, hk])
    case close he _ hi =>
      have serial := h.serials he
      cases hd.symm.trans hi
      exact hs.key serial

theorem thread (h : Registered c) (hs : ThreadSteps c j e c') (he : c.device j = some e) :
    Registered c' := by
  have ⟨stage, _, hd⟩ := hs.device he
  have serial := h.serials he
  refine ⟨hs.within.registry ▸ h.unique, fun v hv => ?_, fun {i d} hi => ?_⟩
  · have ⟨hk, hi⟩ := h.entries v (hs.within.registry ▸ hv)
    rw [hs.within.key, hd]
    refine ⟨hk, ?_⟩
    split
    case isTrue => rfl
    case isFalse => exact hi
  · rw [hs.within.key]
    rw [hd] at hi
    split at hi
    case isTrue hj =>
      cases hi
      exact hj ▸ serial
    case isFalse => exact h.serials hi

theorem of_client (h : Registered c) (hr : c'.registry = c.registry)
    (hd : ∀ i, c'.device i = c.device i) (hk : ∀ i, c'.key i = c.key i) : Registered c' where
  unique  := hr ▸ h.unique
  entries v hv := by
    rw [hd, hk]
    exact h.entries v (hr ▸ hv)
  serials {i d} hi := (hk i).trans (h.serials (hd i ▸ hi))

end Registered

end Client

namespace Application

variable {s s' : Application}

theorem registered_next (h : s.client.Registered) (hn : s.next a = some s') :
    s'.client.Registered := by
  cases next_moves hn
  case configure | setMaxConnections | enter => exact h.of_client rfl (fun _ => rfl) fun _ => rfl
  case drop =>
    exact h.of_client rfl (fun _ => Client.device_modifyLife)
      fun _ => Client.key_modifyImpl fun _ => rfl
  case resume hs => exact h.steps hs
  case thread hd he hs => exact h.thread hs (Client.device_eq hd he)
  case loop hl => cases hl <;> exact h.of_client rfl (fun _ => rfl) fun _ => rfl

end Application

import LibAdb.Machine.Devices

-- How far the closing of a device and the stop of the manager are.

namespace Call

def registers (i : Nat) : Call → Bool
  | .register j => i == j
  | _ => false

theorem makes_of_registers (h : registers i call) : call.makes i := by
  cases call <;> first | exact h | cases h

def passed (i : Nat) : Call → Bool
  | .close _ .lock _ | .close _ .mark _ => false
  | .close j _ _ => i == j
  | _ => false

def closing (i : Nat) : Call → Bool
  | .close j .unregister _ | .close j (.device .mark) _ => i == j
  | _ => false

def stopping : Call → Bool
  | .stopEach _ | .stopDevice _ _ _ => true
  | _ => false

def pending : Call → List Nat
  | .stopEach rest => rest
  | .stopDevice i .mark rest => i :: rest
  | .stopDevice _ _ rest => rest
  | _ => []

end Call

namespace Client

variable {c c' : Client} {call call' : Call}

theorem Steps.keepsClosed (h : Steps c call c' call') (hi : c.isClosed i) : c'.isClosed i := by
  have marked {j : Nat} : (c.modifyImpl j ({ · with closed := true })).isClosed i := by
    simp only [Client.isClosed, impls_modifyImpl] at hi ⊢
    split
    · cases hd : c.impls[i]? <;> simp_all
    · exact hi
  cases h
  case build =>
    simp only [Client.isClosed, any_append]
    split
    case isTrue hj => simp [Client.isClosed, hj] at hi
    case isFalse => exact hi
  case device hs | stopDevice hs => rwa [hs.within.isClosed]
  case busy | mark => exact marked
  all_goals simpa [Client.isClosed, any_modifyImpl] using hi

theorem Steps.registers (h : Steps c call c' call') (hi : call'.registers i) : c'.device i = none := by
  cases h
  case check h => cases h <;> cases hi
  case build =>
    obtain rfl := beq_iff_eq.mp hi
    simp [Client.device]
  case device => cases ‹Option DevicePoint› <;> cases hi
  case stopDevice => cases ‹Option DevicePoint› <;> cases hi
  case unlock after _ => cases after <;> cases hi
  all_goals cases hi

theorem Steps.passed (h : Steps c call c' call') (hp : call.passed i → c.isClosed i)
    (hi : call'.passed i) : c'.isClosed i := by
  have keep (hc : call.passed i) : c'.isClosed i := h.keepsClosed (hp hc)
  cases h
  case check h =>
    cases h
    case marked hd hc =>
      obtain rfl := beq_iff_eq.mp hi
      simp [Client.isClosed, hd, hc]
    case released => exact keep hi
    all_goals cases hi
  case mark j d after hd _ =>
    obtain rfl : i = j := by cases he : d.device <;> simpa [Call.passed, he] using hi
    simp [Client.isClosed, impls_modifyImpl, hd]
  case unregister | release | free => exact keep hi
  case device => cases ‹Option DevicePoint› <;> exact keep hi
  case stopDevice => cases ‹Option DevicePoint› <;> cases hi
  case unlock after _ => cases after <;> cases hi
  all_goals cases hi

theorem Steps.freed_cases (h : Steps c call c' call') (hi : i ∈ c'.freed) :
    i ∈ c.freed ∨ call.passed i := by
  cases h
  case free => simpa [Call.passed] using hi
  case device hs | stopDevice hs => exact .inl (hs.within.freed ▸ hi)
  all_goals exact .inl hi

theorem DeviceSteps.not_isPlugged (h : DeviceSteps c i e .mark c' o) (he : c.device i = some e) :
    c'.isPlugged i = false := by
  cases h
  case closed h => simp [isPlugged, he, h]
  case mark => simp [isPlugged, device_modifyDevice, he]

theorem Steps.isClosed_cases (h : Steps c call c' call')
    (hb : call.registers i → c.device i = none) (hc : c'.isClosed i) :
    c.isClosed i ∨ call'.closing i ∨ c'.device i = none := by
  have other {j : Nat} (hj : j ≠ i) (h : (c.modifyImpl j ({ · with closed := true })).isClosed i) :
      c.isClosed i := by
    simpa [Client.isClosed, impls_modifyImpl, hj] using h
  cases h
  case build =>
    simp only [Client.isClosed, any_append] at hc
    split at hc
    case isTrue => cases hc
    case isFalse => exact .inl hc
  case device hs | stopDevice hs => exact .inl (by rwa [← hs.within.isClosed])
  case busy j d _ _ =>
    by_cases hj : j = i
    case pos =>
      refine .inr (.inr (Eq.trans ?_ (hb (by simp [Call.registers, hj]))))
      exact device_modifyImpl fun _ => rfl
    case neg => exact .inl (other hj hc)
  case mark j d after hd _ =>
    by_cases hj : j = i
    case pos =>
      subst hj
      cases he : d.device
      case some => exact .inr (.inl (by simp [Call.closing]))
      case none => exact .inr (.inr (by simp [Client.device, impls_modifyImpl, hd, he]))
    case neg => exact .inl (other hj hc)
  all_goals exact .inl (by simpa [Client.isClosed, any_modifyImpl] using hc)

theorem Steps.isPlugged_cases (h : Steps c call c' call') (hp : c'.isPlugged i) :
    c.isPlugged i ∨ call.registers i ∧ c.registryHeld = false := by
  cases h.device_moves (i := i)
  case same hd => exact .inl (isPlugged_congr hd ▸ hp)
  case register hc _ hr _ _ => exact .inr ⟨by simp [hc, Call.registers], hr⟩
  case close hd => simp [isPlugged, hd] at hp

theorem DeviceSteps.isPlugged (h : DeviceSteps c i e p c' o) (he : c.device i = some e)
    (hp : c'.isPlugged j) : c.isPlugged j := by
  rcases h.device (i := j) he with hd | ⟨_, _, _, hd⟩
  case inl => rwa [← isPlugged_congr hd]
  case inr => simp [Client.isPlugged, hd] at hp

theorem Steps.closing (h : Steps c call c' call') (hb : call.registers i → c.device i = none)
    (hf : call.registers i → c.isClosed i = false) (hc : c'.isClosed i) (hp : c'.isPlugged i) :
    call'.closing i ∨ c.isClosed i ∧ c.isPlugged i ∧ call.closing i = false := by
  by_cases hcl : call.closing i
  case pos =>
    left
    cases h
    case check h => cases h <;> cases hcl
    case unregister => exact hcl
    case device hd he hs =>
      cases ‹DevicePoint›
      case mark =>
        obtain rfl := beq_iff_eq.mp hcl
        simp [hs.not_isPlugged (device_eq hd he)] at hp
      all_goals cases hcl
    all_goals cases hcl
  case neg =>
    rcases h.isClosed_cases hb hc with closed | closing | none
    · rcases h.isPlugged_cases hp with plugged | ⟨hr, _⟩
      · exact .inr ⟨closed, plugged, Bool.eq_false_iff.mpr hcl⟩
      · simp [hf hr] at closed
    · exact .inl closing
    · simp [isPlugged, none] at hp

theorem Steps.stopping (h : Steps c call c' call') (hr : call.stopping → c.registryHeld) :
    c'.registryHeld.toNat + call.stopping.toNat = c.registryHeld.toNat + call'.stopping.toNat := by
  cases h
  case check h => cases h <;> rfl
  case clear =>
    have := hr rfl
    simp [Call.stopping, this]
  case hold hn => simp [Call.stopping, hn]
  case device hs =>
    rw [hs.within.registryHeld]
    cases ‹Option DevicePoint› <;> rfl
  case stopDevice hs =>
    rw [hs.within.registryHeld]
    cases ‹Option DevicePoint› <;> rfl
  case unlock after _ => cases after <;> rfl
  all_goals rfl

theorem Steps.held (h : Steps c call c' call') (hr : c.registryHeld) (hs : call.stopping = false) :
    c'.registry = c.registry ∧ (c'.isPlugged i → c.isPlugged i) := by
  constructor
  case left =>
    cases h.registry_moves
    case same hr => exact hr
    case clear hc _ => simp [hc, Call.stopping] at hs
    case register hn _ _ _ | unregister hn _ => simp [hr] at hn
  case right =>
    intro hp
    refine (h.isPlugged_cases hp).resolve_right fun ⟨_, hn⟩ => ?_
    simp [hr] at hn

def Stopped (c : Client) (call : Call) : Prop :=
  ∀ v ∈ c.registry, v.2 ∈ call.pending ∨ c.isPlugged v.2 = false

theorem DeviceSteps.stopped (h : DeviceSteps c i e p c' o) (he : c.device i = some e)
    (hc : c.Stopped (.stopDevice i p rest)) : c'.Stopped (stoppedTo i rest o) := by
  have pending : (stoppedTo i rest o).pending = rest := by cases h <;> rfl
  intro v hv
  rw [pending]
  rcases hc v (h.within.registry ▸ hv) with hv | unplugged
  case inl =>
    cases p
    case mark =>
      refine (List.mem_cons.mp hv).symm.imp_right fun hi => ?_
      rw [hi]
      exact h.not_isPlugged he
    all_goals exact .inl hv
  case inr =>
    refine .inr (Bool.eq_false_iff.mpr fun hp => ?_)
    simp [h.isPlugged he hp] at unplugged

theorem Steps.stopped (h : Steps c call c' call') (hc : call.stopping → c.Stopped call)
    (hi : call'.stopping) : c'.Stopped call' := by
  cases h
  case check h =>
    cases h
    case stopNext => exact hc rfl
    all_goals cases hi
  case hold => exact fun v hv => .inl (List.mem_map_of_mem hv)
  case stopDevice hd he hs => exact hs.stopped (device_eq hd he) (hc rfl)
  case device => cases ‹Option DevicePoint› <;> cases hi
  case unlock after _ => cases after <;> cases hi
  all_goals cases hi

theorem Steps.entered (h : Steps c call c' call')
    (hi : c.isPlugged i → c.isClosed i = false → ∃ a, (a, i) ∈ c.registry)
    (hp : call.passed i → c.isClosed i) (hs : call.stopping → c.Stopped call)
    (plugged : c'.isPlugged i) (closed : c'.isClosed i = false) : ∃ a, (a, i) ∈ c'.registry := by
  have opened : c.isClosed i = false := by
    rw [Bool.eq_false_iff]
    intro hc
    simp [h.keepsClosed hc] at closed
  rcases h.isPlugged_cases plugged with plugged | ⟨hr, _⟩
  case inl =>
    have ⟨a, ha⟩ := hi plugged opened
    refine ⟨a, ?_⟩
    cases h.registry_moves
    case same hr => rwa [hr]
    case register hr _ => exact hr ▸ List.mem_append_left _ ha
    case unregister j after d hc _ _ hr =>
      rw [hr, List.mem_filter]
      refine ⟨ha, ?_⟩
      simp only [bne_iff_ne, Ne, Prod.mk.injEq, not_and]
      rintro - rfl
      have := hp (by simp [hc, Call.passed])
      simp [opened] at this
    case clear hc _ =>
      have := hs (by simp [hc, Call.stopping]) _ ha
      simp [hc, Call.pending, plugged] at this
  case inr =>
    cases h
    case check h => cases h <;> cases hr
    case register =>
      obtain rfl := beq_iff_eq.mp hr
      exact ⟨_, List.mem_append_right _ (List.mem_singleton_self _)⟩
    case busy hd _ =>
      obtain rfl := beq_iff_eq.mp hr
      simp [Client.isClosed, impls_modifyImpl, hd] at closed
    all_goals cases hr

end Client

namespace Application

variable {s s' : Application} {k : Nat}

def Blank (s : Application) : Prop :=
  ∀ i, ∀ call ∈ s.calls, call.registers i → s.client.device i = none

theorem Blank.resume (h : Blank s) (ho : Ordered s) (hk : s.calls[k]? = some call)
    (hs : s.client.Steps call c' call') : Blank { client := c', calls := s.calls.set k call' } := by
  intro i x hx hi
  rcases List.mem_set_cases hx with rfl | ⟨n, hn, hx⟩
  case inl => exact hs.registers hi
  case inr =>
    have blank := h i x (List.mem_of_getElem? hx) hi
    cases hs.device_moves (i := i)
    case same hd => exact hd.trans blank
    case register hc _ _ _ _ =>
      refine absurd (ho.makes.unique hx (Call.makes_of_registers hi) hk ?_) hn
      simp [hc, Call.makes]
    case close hd _ _ => simp [blank] at hd

theorem Blank.next (h : Blank s) (ho : Ordered s) (hn : s.next a = some s') : Blank s' := by
  cases next_moves hn
  case configure | setMaxConnections => exact h
  case enter he =>
    intro i
    refine List.forall_mem_append.mpr ⟨h i, List.forall_mem_singleton.mpr fun hi => ?_⟩
    cases he <;> cases hi
  case drop =>
    intro i
    refine List.forall_mem_append.mpr ⟨fun x hx hi => ?_, List.forall_mem_singleton.mpr nofun⟩
    exact Client.device_modifyLife.trans (h i x hx hi)
  case thread hd he hs =>
    intro i x hx hi
    have blank := h i x hx hi
    have he := Client.device_eq hd he
    have ⟨stage, _, hj⟩ := hs.device he
    rw [hj, if_neg]
    · exact blank
    · rintro rfl
      simp [blank] at he
  case loop hl => cases hl <;> exact h
  case resume hk hs => exact h.resume ho hk hs

structure Closing (s : Application) : Prop where
  passed  : ∀ call ∈ s.calls, call.passed i → s.client.isClosed i
  freed   : i ∈ s.client.freed → s.client.isClosed i
  closing : s.client.isClosed i → s.client.isPlugged i → ∃ call ∈ s.calls, call.closing i
  held    : Stands (·.stopping) (·.registryHeld) s
  stopped : ∀ call ∈ s.calls, call.stopping → s.client.Stopped call
  entered : s.client.isPlugged i → s.client.isClosed i = false → ∃ a, (a, i) ∈ s.client.registry

namespace Closing

theorem resume (h : Closing s) (ho : Ordered s) (hb : Blank s) (hk : s.calls[k]? = some call)
    (hs : s.client.Steps call c' call') :
    Closing { client := c', calls := s.calls.set k call' } where
  passed :=
    List.forall_mem_set (fun x hx hi => hs.keepsClosed (h.passed x hx hi))
      (hs.passed (h.passed call (List.mem_of_getElem? hk)))
  freed hi :=
    hs.keepsClosed ((hs.freed_cases hi).elim h.freed (h.passed call (List.mem_of_getElem? hk)))
  closing {i} hc hp := by
    have hcall := List.mem_of_getElem? hk
    have hf (hr : call.registers i) : s.client.isClosed i = false := ho.fresh call hcall (by
      cases call <;> first | exact hr | cases hr)
    rcases hs.closing (hb i call hcall) hf hc hp with hi | ⟨hc, hp, hn⟩
    case inl => exact ⟨call', List.mem_set_of_getElem? hk, hi⟩
    case inr => exact List.exists_mem_set hk (by simp [hn]) (h.closing hc hp)
  held := h.held.resume hk hs.stopping
  stopped x hx hi := by
    have hcall := List.mem_of_getElem? hk
    rcases List.mem_set_cases hx with rfl | ⟨n, hn, hx⟩
    case inl => exact hs.stopped (h.stopped call hcall) hi
    case inr =>
      have hx' := List.mem_of_getElem? hx
      have other : call.stopping = false :=
        Bool.eq_false_iff.mpr fun hc => hn (h.held.unique hx hi hk hc)
      have held := h.held.of_mem hx' hi
      intro v hv
      rw [(hs.held (i := v.2) held other).left] at hv
      refine (h.stopped x hx' hi v hv).imp_right fun unplugged => ?_
      refine Bool.eq_false_iff.mpr fun hp => ?_
      simp [(hs.held held other).right hp] at unplugged
  entered plugged closed :=
    have hcall := List.mem_of_getElem? hk
    hs.entered h.entered (h.passed call hcall) (h.stopped call hcall) plugged closed

theorem of_client (h : Closing s) (hc : ∀ i, c'.isClosed i = s.client.isClosed i)
    (hp : ∀ i, c'.isPlugged i = s.client.isPlugged i) (hf : c'.freed = s.client.freed)
    (hr : c'.registry = s.client.registry) (hh : c'.registryHeld = s.client.registryHeld) :
    Closing { s with client := c' } where
  passed call hx hi := (hc _).trans (h.passed call hx hi)
  freed hi := (hc _).trans (h.freed (hf ▸ hi))
  closing {i} closed plugged := h.closing (hc i ▸ closed) (hp i ▸ plugged)
  held := h.held.of_eq hh
  stopped call hx hi v hv := by
    rw [hp]
    exact h.stopped call hx hi v (hr ▸ hv)
  entered {i} plugged closed := hr ▸ h.entered (hp i ▸ plugged) (hc i ▸ closed)

theorem enter (h : Closing s) (hp : ∀ i, call.passed i = false) (hs : call.stopping = false) :
    Closing (s.enter call) where
  passed := by
    refine List.forall_mem_append.mpr ⟨h.passed, List.forall_mem_singleton.mpr fun hi => ?_⟩
    simp [hp] at hi
  freed := h.freed
  closing hc hi :=
    have ⟨x, hx, hxi⟩ := h.closing hc hi
    ⟨x, List.mem_append_left _ hx, hxi⟩
  held := h.held.enter (by simp [hs])
  stopped := by
    refine List.forall_mem_append.mpr ⟨h.stopped, List.forall_mem_singleton.mpr fun hi => ?_⟩
    simp [hs] at hi
  entered := h.entered

theorem next (h : Closing s) (ho : Ordered s) (hb : Blank s) (hn : s.next a = some s') :
    Closing s' := by
  cases next_moves hn
  case configure | setMaxConnections =>
    exact h.of_client (fun _ => rfl) (fun _ => rfl) rfl rfl rfl
  case enter he => exact h.enter (fun i => by cases he <;> rfl) (by cases he <;> rfl)
  case drop i ha _ =>
    have moved : Closing { s with client := s.client.modifyImpl i ({ · with life := .dying }) } :=
      h.of_client (fun _ => Client.isClosed_modifyLife)
        (fun _ => Client.isPlugged_congr Client.device_modifyLife) rfl rfl rfl
    exact moved.enter (fun _ => rfl) rfl
  case resume hk hs => exact h.resume ho hb hk hs
  case thread j d e c' b hd he hs =>
    have he := Client.device_eq hd he
    have ⟨stage, _, hj⟩ := hs.device he
    have plugged i : c'.isPlugged i = s.client.isPlugged i := by
      simp only [Client.isPlugged, hj]
      split
      case isTrue hji => simp [← hji, he]
      case isFalse => rfl
    exact h.of_client (fun _ => hs.within.isClosed) plugged hs.within.freed hs.within.registry
      hs.within.registryHeld
  case loop hl => cases hl <;> exact h.of_client (fun _ => rfl) (fun _ => rfl) rfl rfl rfl

theorem empty : Closing {} where
  passed := nofun
  freed := nofun
  closing := nofun
  held := rfl
  stopped := nofun
  entered := nofun

end Closing

structure Sound (s : Application) : Prop where
  ordered    : Ordered s
  blank      : Blank s
  registered : s.client.Registered
  closing    : Closing s

theorem Sound.next (h : Sound s) (hn : s.next a = some s') : Sound s' where
  ordered    := h.ordered.next hn
  blank      := h.blank.next h.ordered hn
  registered := registered_next h.registered hn
  closing    := h.closing.next h.ordered h.blank hn

theorem Sound.empty : Sound {} where
  ordered    := .empty
  blank      := nofun
  registered := ⟨List.nodup_nil, nofun, nofun⟩
  closing    := .empty

theorem Reachable.sound (h : Reachable C s) : Sound s :=
  Reach.invariant (fun _ _ _ _ hn h => h.next hn) h .empty

end Application

import LibAdb.Machine.Closing

namespace Client

variable {c c' : Client} {call call' : Call}

structure Refused (c : Client) (i : Nat) : Prop where
  closed : c.isClosed i
  device : c.device i = none

structure SameDevices (c c' : Client) : Prop where
  registry   : c'.registry = c.registry
  transports : c'.transports = c.transports
  device i   : c'.device i = c.device i

theorem Refused.steps (h : Refused c i) (hs : Steps c call c' call')
    (hf : call.starts i → c.isClosed i = false) : Refused c' i where
  closed := hs.keepsClosed h.closed
  device := by
    cases hs.device_moves (i := i)
    case same hd => exact hd.trans h.device
    case register hc _ _ _ _ =>
      have := hf (by simp [hc, Call.starts])
      simp [h.closed] at this
    case close hd _ _ => simp [h.device] at hd

theorem eq_of_close (h : (Call.close j p after).makes i || (Call.close j p after).buries i) : i = j := by
  cases after <;> simp_all [Call.makes, Call.buries]

theorem Refused.not_mem (h : Refused c i) (hr : Registered c) (a : Bytes) : (a, i) ∉ c.registry := by
  intro ha
  have := (hr.entries _ ha).right
  simp [h.device] at this

theorem Refused.same (h : Refused c i) (hs : Steps c call c' call') (hr : Registered c)
    (hf : call.starts i → c.isClosed i = false) (hc : call.makes i || call.buries i) :
    SameDevices c c' := by
  cases hs
  case build | clear | stopDevice => cases hc
  case register j d _ _ _ =>
    obtain rfl : i = j := by simpa [Call.makes, Call.buries] using hc
    have := hf (by simp [Call.starts])
    simp [h.closed] at this
  case unregister =>
    obtain rfl := eq_of_close hc
    refine ⟨List.filter_eq_self.mpr fun v hv => ?_, rfl, fun _ => rfl⟩
    simp only [bne_iff_ne, Ne]
    rintro rfl
    exact h.not_mem hr _ hv
  case device hd he _ =>
    obtain rfl := eq_of_close hc
    have := h.device
    simp [device_eq hd he] at this
  case busy | lock | mark | release | unlock | discard | destroyed =>
    exact ⟨rfl, rfl, fun _ => device_modifyImpl fun _ => rfl⟩
  case remember => exact ⟨rfl, rfl, fun _ => device_modifyLife (c := c)⟩
  all_goals exact ⟨rfl, rfl, fun _ => rfl⟩

end Client

namespace Application

variable {s s' : Application} {k : Nat}

theorem client_of_resume (h : s.next (.resume k b) = some s') (hk : s.calls[k]? = some call) :
    ∃ call', s.client.Steps call s'.client call' := by
  cases next_moves h
  case enter he | loop he => cases he
  case resume hs hn =>
    cases hk.symm.trans hn
    exact ⟨_, hs⟩

theorem unregistered_by (hn : s.next a = some s') (hv : v ∈ s.client.registry)
    (hv' : v ∉ s'.client.registry) :
    ∃ k b, a = .resume k b ∧ ((∃ after, s.calls[k]? = some (.close v.2 .unregister after)) ∨
      s.calls[k]? = some (.stopEach [])) := by
  cases next_moves hn
  case configure | setMaxConnections | enter | drop => exact absurd hv hv'
  case thread hs => exact absurd (hs.within.registry ▸ hv) hv'
  case loop hl => cases hl <;> exact absurd hv hv'
  case resume k call c' call' b hk hs =>
    refine ⟨k, b, rfl, ?_⟩
    cases hs.registry_moves
    case same hr => exact absurd (hr ▸ hv) hv'
    case register hr _ => exact absurd (hr ▸ List.mem_append_left _ hv) hv'
    case unregister i after d hc hd hh hr =>
      subst hc
      simp only [hr, List.mem_filter, hv, true_and, bne_iff_ne, not_not] at hv'
      exact .inl ⟨after, hv' ▸ hk⟩
    case clear hc _ => exact .inr (hc ▸ hk)

theorem unplugged_by (hn : s.next a = some s') (hi : s.client.isPlugged i)
    (hi' : s'.client.isPlugged i = false) :
    ∃ k b call, a = .resume k b ∧ s.calls[k]? = some call ∧ call.unplugs i := by
  have same (hd : s'.client.device i = s.client.device i) : False := by
    simp [Client.isPlugged_congr hd, hi] at hi'
  cases next_moves hn
  case configure | setMaxConnections | enter => exact (same rfl).elim
  case drop => exact (same Client.device_modifyLife).elim
  case loop hl => cases hl <;> exact (same rfl).elim
  case thread j d e c' b hd he hs =>
    have he := Client.device_eq hd he
    have ⟨stage, _, hj⟩ := hs.device he
    by_cases hij : j = i
    case pos =>
      subst hij
      simp only [Client.isPlugged, hj, he, if_true, Option.any_some] at hi hi'
      simp [hi] at hi'
    case neg => exact (same ((hj i).trans (if_neg hij))).elim
  case resume k call c' call' b hk hs =>
    refine ⟨k, b, call, rfl, hk, ?_⟩
    cases hs.device_moves (i := i)
    case same hd => exact (same hd).elim
    case register hd => simp [Client.isPlugged, hd] at hi'
    case close hc _ _ _ => exact hc

theorem refused_next (ho : Ordered s) (hi : s.client.Refused i) (hn : s.next a = some s') :
    s'.client.Refused i := by
  cases next_moves hn
  case configure | setMaxConnections | enter => exact ⟨hi.closed, hi.device⟩
  case drop =>
    exact ⟨Client.isClosed_modifyLife.trans hi.closed, Client.device_modifyLife.trans hi.device⟩
  case loop hl => cases hl <;> exact ⟨hi.closed, hi.device⟩
  case thread hd he hs =>
    refine ⟨hs.within.isClosed.trans hi.closed, ?_⟩
    have he := Client.device_eq hd he
    have ⟨stage, _, hj⟩ := hs.device he
    rw [hj, if_neg]
    · exact hi.device
    · rintro rfl
      simp [hi.device] at he
  case resume hk hs => exact hi.steps hs (ho.fresh _ (List.mem_of_getElem? hk))

theorem refused_of_busy (hs : s.client.Steps (.register i) c' call')
    (hb : s.client.device i = none) (hd : s.client.impls[i]? = some d)
    (h : s.client.hasDevice d.addressKey) : c'.Refused i ∧ s.client.SameDevices c' := by
  cases hs
  case check hs => cases hs
  case register hn hd' =>
    cases hd.symm.trans hd'
    simp [h] at hn
  case busy =>
    have same j : (s.client.modifyImpl i ({ · with closed := true })).device j = s.client.device j :=
      Client.device_modifyImpl fun _ => rfl
    refine ⟨⟨?_, (same i).trans hb⟩, ⟨rfl, rfl, same⟩⟩
    simp [Client.isClosed, Client.impls_modifyImpl, hd]

theorem registry_exclusive (h : Reachable C s) :
    (s.client.registry.map Prod.fst).Nodup ∧
    (∀ a s' v, s.next a = some s' → v ∈ s.client.registry → v ∉ s'.client.registry →
      ∃ k b, a = .resume k b ∧ ((∃ after, s.calls[k]? = some (.close v.2 .unregister after)) ∨
        s.calls[k]? = some (.stopEach []))) ∧
    (∀ a s' i, s.next a = some s' → s.client.isPlugged i → s'.client.isPlugged i = false →
      ∃ k b call, a = .resume k b ∧ s.calls[k]? = some call ∧ call.unplugs i) ∧
    (∀ k b address s', s.calls[k]? = some (.lookUp address) → s.next (.resume k b) = some s' →
      s'.client = s.client) ∧
    (∀ k b i d s', s.calls[k]? = some (.register i) → s.client.impls[i]? = some d →
      s.client.hasDevice d.addressKey → s.next (.resume k b) = some s' →
      s'.client.Refused i ∧ s.client.SameDevices s'.client) ∧
    (∀ a i s', s.client.Refused i → s.next a = some s' → s'.client.Refused i) ∧
    (∀ k b i call s', s.client.Refused i → s.calls[k]? = some call → call.makes i || call.buries i →
      s.next (.resume k b) = some s' → s.client.SameDevices s'.client) := by
  obtain ⟨ho, blank, registered, _⟩ := h.sound
  refine ⟨registered.unique, fun a s' v => unregistered_by, fun a s' i => unplugged_by,
    fun k b address s' hk hn => ?_, fun k b i d s' hk hd hb hn => ?_, fun a i s' hi hn => ?_,
    fun k b i call s' hi hk hc hn => ?_⟩
  · obtain ⟨call', hs⟩ := client_of_resume hn hk
    generalize s'.client = c' at hs
    cases hs
    rfl
  · obtain ⟨call', hs⟩ := client_of_resume hn hk
    refine refused_of_busy hs (blank i _ (List.mem_of_getElem? hk) ?_) hd hb
    simp [Call.registers]
  · exact refused_next ho hi hn
  · obtain ⟨call', hs⟩ := client_of_resume hn hk
    exact hi.same hs registered (ho.fresh call (List.mem_of_getElem? hk)) hc

-- Two connects find the address free, and the second one is refused.
theorem registry_exclusive_after_race :
    ∃ s, Reachable (fun _ _ => True) s ∧ s.client.registry = [([97], 0)] ∧ s.client.Refused 1 ∧
      s.calls[1]? = some (.discard 1) ∧
      ∀ b s', s.next (.resume 1 b) = some s' → s.client.SameDevices s'.client := by
  have ⟨s, h, hr, closed, device, hc⟩ : ∃ s, Reachable (fun _ _ => True) s ∧
      s.client.registry = [([97], 0)] ∧ s.client.isClosed 1 ∧ s.client.device 1 = none ∧
        s.calls[1]? = some (.discard 1) :=
    Reach.exists_of_exec (List.flatten [[.configure 0, .connect [97], .connect [97]],
      List.replicate 4 (.resume 0 false), List.replicate 4 (.resume 1 false),
      [.resume 0 false, .resume 1 false]]) (by decide +kernel)
  have hi : s.client.Refused 1 := ⟨closed, device⟩
  have ⟨_, _, _, _, _, _, same⟩ := registry_exclusive h
  exact ⟨s, h, hr, hi, hc, fun b s' => same 1 b 1 _ s' hi hc rfl⟩

-- A device that is open is in the registry under its address, or a call is about to close it.
theorem open_devices_registered (h : Reachable C s) (hp : s.client.isPlugged i) :
    (∃ a, (a, i) ∈ s.client.registry ∧ s.client.key i = some a) ∨
      ∃ call ∈ s.calls, call.closing i := by
  have ⟨_, _, registered, closing⟩ := h.sound
  cases hc : s.client.isClosed i
  case false =>
    have ⟨a, ha⟩ := closing.entered hp hc
    exact .inl ⟨a, ha, (registered.entries _ ha).left⟩
  case true => exact .inr (closing.closing hc hp)

theorem open_devices_registered_while_connecting : ∃ s : Application, s.client.isPlugged 0 ∧
    ∃ a, (a, 0) ∈ s.client.registry ∧ s.client.key 0 = some a := by
  have ⟨s, h, hp, hc⟩ : ∃ s, Reachable (fun _ _ => True) s ∧ s.client.isPlugged 0 ∧
      ¬∃ call ∈ s.calls, call.closing 0 :=
    Reach.exists_of_exec ([.configure 0, .connect [97]] ++ List.replicate 5 (.resume 0 false))
      (by decide +kernel)
  exact ⟨s, hp, (open_devices_registered h hp).resolve_right hc⟩

end Application

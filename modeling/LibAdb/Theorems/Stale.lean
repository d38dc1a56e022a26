import LibAdb.Machine.Closing
import LibAdb.Machine.Transports

namespace Client

variable {c c' : Client} {call call' : Call}

def isOpen (c : Client) (i : Nat) : Bool :=
  c.isPlugged i && !c.isClosed i

theorem isOpen_iff : c.isOpen i ↔ c.isPlugged i ∧ c.isClosed i = false := by
  simp [isOpen]

end Client

namespace Application

variable {s s' : Application} {k : Nat}

-- A device is registered when the connect threads of all earlier devices of its address are over.
def retired (s : Application) : Action → Bool
  | .resume k _ =>
    match s.calls[k]? with
    | some (.register i) =>
      (s.client.impls[i]?).all fun d => s.client.hasDevice d.addressKey ||
        s.client.impls.all fun x => x.device.all fun e =>
          e.serial != d.addressKey || e.thread == .finished
    | _ => true
  | _ => true

theorem finished_of_retired (h : s.retired (.resume k b)) (hk : s.calls[k]? = some (.register i))
    (hd : s.client.impls[i]? = some d) (hn : s.client.hasDevice d.addressKey = false)
    (he : s.client.device j = some e) (hs : e.serial = d.addressKey) : e.thread = .finished := by
  simp only [retired, hk, hd, hn, Option.all_some, Bool.false_or, List.all_eq_true] at h
  have ⟨x, hx, hxe⟩ := Option.bind_eq_some_iff.mp he
  simpa [hxe, hs] using h x (List.mem_of_getElem? hx)

structure Alone (s : Application) : Prop where
  kicking : s.client.device i = some e → e.thread = .kicking t → s.client.serialOf t = some e.serial
  alone   : i ≠ j → s.client.device i = some e → e.thread ≠ .finished →
    s.client.device j = some f → f.serial = e.serial → s.client.isOpen j = false

namespace Alone

theorem resume (h : Alone s) (hs : Sound s) (hp : s.retired (.resume k b))
    (hk : s.calls[k]? = some call) (step : s.client.Steps call c' call') :
    Alone { client := c', calls := s.calls.set k call' } where
  kicking {i e t} he ht := by
    refine step.serialOf.trans ?_
    cases step.device_moves (i := i)
    case same hd => exact h.kicking (hd ▸ he) ht
    case register hd =>
      cases he.symm.trans hd
      cases ht
    case close hd _ hd' =>
      have kicked := h.kicking (t := t) hd
      cases he.symm.trans hd'
      exact kicked ht
  alone {i j e f} hij he ht hf hsame := by
    refine Bool.eq_false_iff.mpr fun opened => ?_
    obtain ⟨plugged, closed⟩ := Client.isOpen_iff.mp opened
    have closed : s.client.isClosed j = false :=
      Bool.eq_false_iff.mpr fun hc => by simp [step.keepsClosed hc] at closed
    have before : (∃ e', s.client.device i = some e' ∧ e'.serial = e.serial ∧ e'.thread = e.thread) ∨
        call = .register i ∧ s.client.hasDevice e.serial = false := by
      cases step.device_moves (i := i)
      case same hd => exact .inl ⟨e, hd ▸ he, rfl, rfl⟩
      case close hd _ hd' =>
        refine .inl ⟨_, hd, ?_⟩
        cases he.symm.trans hd'
        exact ⟨rfl, rfl⟩
      case register hc _ _ hn hd =>
        cases he.symm.trans hd
        exact .inr ⟨hc, hn⟩
    cases step.device_moves (i := j)
    case close hd => simp [Client.isPlugged, hd] at plugged
    case same hd =>
      have plugged := Client.isPlugged_congr hd ▸ plugged
      rw [hd] at hf
      rcases before with ⟨e', he', hse, hte⟩ | ⟨_, hn⟩
      case inl =>
        have := h.alone hij he' (hte ▸ ht) hf (hsame.trans hse.symm)
        simp [Client.isOpen, plugged, closed] at this
      case inr =>
        obtain ⟨a, ha⟩ := hs.closing.entered plugged closed
        obtain ⟨hka, _⟩ := hs.registered.entries _ ha
        have hkf := hs.registered.serials hf
        cases hka.symm.trans hkf
        exact Client.not_hasDevice hn (List.mem_map.mpr ⟨_, ha, hsame⟩)
    case register hc hi _ hn hd =>
      cases hf.symm.trans hd
      rcases before with ⟨e', he', hse, hte⟩ | ⟨hc', _⟩
      case inl =>
        exact ht (hte ▸ finished_of_retired hp (hc ▸ hk) hi hn he' (hse.trans hsame.symm))
      case inr =>
        cases hc.symm.trans hc'
        exact hij rfl

theorem thread (h : Alone s) (hd : s.client.device x = some v) (step : s.client.ThreadSteps x v c') :
    Alone { s with client := c' } := by
  have ⟨stage, kick, hx⟩ := step.device hd
  have back {i e} (he : c'.device i = some e) : ∃ e', s.client.device i = some e' ∧
      e'.serial = e.serial ∧ e'.closed = e.closed ∧ (e.thread ≠ .finished → e'.thread ≠ .finished) ∧
      ∀ t, e.thread = .kicking t → s.client.serialOf t = some e.serial := by
    rw [hx] at he
    split at he
    case isTrue hi =>
      cases he
      refine ⟨v, hi ▸ hd, rfl, rfl, fun _ => step.unfinished, fun t ht => ?_⟩
      exact Client.serialOf_find (kick t ht)
    case isFalse => exact ⟨e, he, rfl, rfl, id, fun t => h.kicking he⟩
  refine ⟨fun {i e t} he ht => ?_, fun {i j e f} hij he hn hf hs => ?_⟩
  · have ⟨_, _, _, _, _, ht'⟩ := back he
    exact step.serialOf (ht' t ht)
  · have ⟨e', he', hse, _, hte, _⟩ := back he
    have ⟨f', hf', hsf, hcf, _, _⟩ := back hf
    have := h.alone hij he' (hte hn) hf' (by rw [hsf, hse, hs])
    simpa [Client.isOpen, Client.isPlugged, hf, hf', hcf, step.within.isClosed] using this

theorem of_client (h : Alone s) (hd : ∀ i, c'.device i = s.client.device i)
    (hc : ∀ i, c'.isClosed i = s.client.isClosed i) (ht : ∀ t, c'.serialOf t = s.client.serialOf t) :
    Alone { s with client := c' } where
  kicking {i e t} he hk := (ht t).trans (h.kicking (hd i ▸ he) hk)
  alone {i j e f} hij he hn hf hs := by
    have := h.alone hij (hd i ▸ he) hn (hd j ▸ hf) hs
    simpa only [Client.isOpen, Client.isPlugged_congr (hd j), hc j] using this

theorem next (h : Alone s) (hs : Sound s) (hp : s.retired a) (hn : s.next a = some s') :
    Alone s' := by
  cases next_moves hn
  case configure | setMaxConnections =>
    exact h.of_client (fun _ => rfl) (fun _ => rfl) fun _ => rfl
  case enter => exact ⟨h.kicking, h.alone⟩
  case drop i _ _ =>
    have moved : Alone { s with client := s.client.modifyImpl i ({ · with life := .dying }) } :=
      h.of_client (fun _ => Client.device_modifyLife) (fun _ => Client.isClosed_modifyLife)
        fun _ => rfl
    exact ⟨moved.kicking, moved.alone⟩
  case resume hk step => exact h.resume hs hp hk step
  case thread hd he step => exact h.thread (Client.device_eq hd he) step
  case loop hl =>
    refine h.of_client (fun i => ?_) (fun i => ?_) fun t => ?_
    · cases hl <;> rfl
    · cases hl <;> rfl
    · cases hl
      case kick => exact Client.serialOf_kick
      case list | delete => exact Client.serialOf_modify fun _ => rfl

end Alone

theorem Reachable.alone (h : Reachable (fun s a => s.retired a) s) : Alone s := by
  refine Reach.invariant_under (I := Sound) (fun _ _ _ _ hn h => h.next hn)
    (fun s a s' hs hp hn h => ?_) h .empty ⟨nofun, nofun⟩
  exact h.next hs hp hn

theorem used_transport_survives (h : Reachable (fun s a => s.retired a) s)
    (hn : s.next (.thread i b) = some s') (hij : j ≠ i) (hj : s.client.isOpen j)
    (ht : s.client.transportOf j = some t) :
    s'.client.transports[t]? = s.client.transports[t]? := by
  have ⟨f, hf, hfind⟩ := Option.bind_eq_some_iff.mp ht
  have hl : t < s.client.transports.length := (List.findIdx?_eq_some_iff_getElem.mp hfind).choose
  cases next_moves hn
  case enter he | loop he => cases he
  case thread he hd step =>
    have he := Client.device_eq hd he
    cases step
    case enroll => exact List.getElem?_append_left hl
    case kick u hs =>
      suffices hu : u ≠ t from Client.transports_kick hu
      rintro rfl
      have hsu := h.alone.kicking he hs
      have serial := Option.some.inj (hsu.symm.trans (Client.serialOf_find hfind))
      have := h.alone.alone hij.symm he (by simp [hs]) hf serial.symm
      simp [hj] at this
    all_goals rfl

-- A connection to another address that timed out kicks its own transport.
theorem used_transport_survives_other_address :
    ∃ s s', Reachable (fun s a => s.retired a) s ∧ s.next (.thread 1 true) = some s' ∧
      s.client.isOpen 0 ∧ s.client.transportOf 0 = some 0 ∧
      (s.client.device 1).any (·.thread == .kicking 1) ∧
      s'.client.transports[0]? = s.client.transports[0]? := by
  have ⟨s, h, hj, ht, hk, s', hn, _⟩ : ∃ s, Reachable (fun s a => s.retired a) s ∧
      s.client.isOpen 0 ∧ s.client.transportOf 0 = some 0 ∧
      (s.client.device 1).any (·.thread == .kicking 1) ∧ ∃ s' ∈ s.next (.thread 1 true), True :=
    Reach.exists_of_guarded (fun _ _ hq => hq) (List.flatten [[.configure 0, .connect [97],
      .connect [98]], List.replicate 5 (.resume 0 false), List.replicate 2 (.thread 0 true),
      [.list 0, .thread 0 true], List.replicate 2 (.resume 0 false),
      List.replicate 5 (.resume 1 false), List.replicate 16 (.resume 1 true),
      [.thread 1 true, .list 1], List.replicate 3 (.thread 1 true)]) (by decide +kernel)
  exact ⟨s, s', h, hn, hj, ht, hk, used_transport_survives h hn (by decide) hj ht⟩

-- The first connection to the address times out, the second one succeeds, and then the thread of the
-- first one is told that it is already connected.
theorem stale_thread_kicks_transport :
    ∃ s s', Reachable (fun _ _ => True) s ∧ s.next (.thread 0 true) = some s' ∧
      s.client.isOpen 1 ∧ s.client.isAlive 1 ∧ s.client.transportOf 1 = some 0 ∧
      (s.client.transports[0]?).any (!·.kicked) ∧ (s'.client.transports[0]?).any (·.kicked) := by
  have ⟨s, hs, s', hn, rest⟩ : ∃ s, Reachable (fun _ _ => True) s ∧
      ∃ s' ∈ s.next (.thread 0 true), s.client.isOpen 1 ∧ s.client.isAlive 1 ∧
        s.client.transportOf 1 = some 0 ∧ (s.client.transports[0]?).any (!·.kicked) ∧
        (s'.client.transports[0]?).any (·.kicked) :=
    Reach.exists_of_exec (List.flatten [[.configure 0, .connect [97]],
      List.replicate 21 (.resume 0 true), [.connect [97]], List.replicate 5 (.resume 1 false),
      List.replicate 2 (.thread 1 true), [.list 0, .thread 1 true],
      List.replicate 2 (.resume 1 false), List.replicate 3 (.thread 0 true)]) (by decide +kernel)
  exact ⟨s, s', hs, hn, rest⟩

end Application

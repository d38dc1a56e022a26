import LibAdb.Machine.Refinement

namespace Looper

variable {s s' : Looper} {r p : Ref} {c d : ASocket} {t : Tid} {a : Action}

theorem next_preserves_aborted (w : s.WF) (h : s.next a = some s') (ha : ¬s.Aborts a) :
    s'.aborted = s.aborted := by
  refine preserved_by_next (J := fun s₁ => s₁.aborted = s.aborted) w h ?_ rfl
  intro s₁ b s₂ _ hb hs h₁
  have hb' : ∀ x, b ≠ .abort x := by
    rintro x rfl
    exact ha hb.left
  exact (hs.frame.aborted hb').trans h₁

@[simp]
theorem aborted_localSocketReady : (s.localSocketReady r).aborted = s.aborted := by
  unfold localSocketReady
  split
  case h_1 => rfl
  case h_2 => split <;> rfl

@[simp]
theorem aborted_restoreOps : (s.restoreOps r).aborted = s.aborted := by
  unfold restoreOps
  split <;> rfl

@[simp]
theorem isSome_aborted_abort : (s.abort x).aborted.isSome :=
  rfl

theorem aborted_createLocalSocket_of_exhausted {t : Option Tid} (h : s.IdsExhausted) :
    (s.createLocalSocket t).1.aborted.isSome := by
  unfold IdsExhausted at h
  simp [createLocalSocket, installLocalSocket, h]

theorem connectToRemote_aborts (hr : s.sock r = some c) (cp : c.peer = none)
    (ct : c.transport = some t) (h : s.OpenAborts t dest) :
    (s.connectToRemote r dest).aborted.isSome := by
  rw [OpenAborts] at h
  simp only [connectToRemote, hr, ct]
  cases hu : (s.transports t).updateReverseConfig dest
  case none => rfl
  case some tr =>
    rw [hu] at h
    have hmax : (s.setTransport t tr).getMaxPayload c = min Apacket.maxPayload tr.maxPayload := by
      simp [getMaxPayload_eq cp ct, setTransport]
    simp only [hmax]
    rw [if_neg (by simpa [openPacket, Apacket.make] using h)]
    rfl

theorem connectToRemote_ended (h : s.aborted.isSome) : (s.connectToRemote r dest).aborted.isSome := by
  unfold connectToRemote
  split
  case h_1 => exact h
  case h_2 =>
    split
    case h_1 => exact h
    case h_2 =>
      split
      case h_1 => rfl
      case h_2 =>
        dsimp only
        split <;> [exact h; rfl]

theorem openService_aborts (h : s.IdsExhausted ∨ s.OpenAborts t service) :
    (s.openService t service).aborted.isSome := by
  rcases h with h | h
  · exact connectToRemote_ended (aborted_createLocalSocket_of_exhausted h)
  · have hr : (s.createLocalSocket (some t)).1.sock (s.createLocalSocket (some t)).2 =
        some (s.newLocalSocket (some t)) := sock_newLocalSocket
    refine connectToRemote_aborts hr rfl rfl ?_
    exact (openAborts_congr transports_createLocalSocket).mpr h

theorem acceptClient_aborts (h : s.IdsExhausted) : s.acceptClient.aborted.isSome := by
  simp only [acceptClient, connectToSmartsocket, aborted_localSocketReady]
  exact aborted_createLocalSocket_of_exhausted h

theorem tlsHandshake_aborts (h₁ : (s.transports t).key = none)
    (h₂ : ((s.transports t).nextKey s.keys).key = none) : (s.tlsHandshake t).aborted.isSome := by
  have hk (n) : ({ s.transports t with handshakes := n } : ATransport).key = none := h₁
  have hn (n) : (({ s.transports t with handshakes := n } : ATransport).nextKey s.keys).key = none :=
    h₂
  simp [tlsHandshake, hk, hn]

theorem acceptOpen_aborts (h₀ : q.arg0 ≠ 0) (h : s.IdsExhausted) :
    (s.acceptOpen t q).aborted.isSome := by
  have h₁ := aborted_createLocalSocket_of_exhausted (t := some t) h
  simp only [acceptOpen, createRemoteSocket_eq h₀]
  split
  case h_1 => exact h₁
  case h_2 =>
    rw [aborted_localSocketReady]
    split <;> exact h₁

theorem sendAuthResponse_aborts (h : ((s.transports t).nextKey s.keys).key = none)
    (hd : os.androidDir = false) : (s.sendAuthResponse t token os).aborted.isSome := by
  simp [sendAuthResponse, h, sendAuthPublickey, hd]

theorem handlePacket_aborts {m : ReceivedPacket} (h : s.PacketAborts t m.toApacket os) :
    (s.handlePacket t m.toApacket os).aborted.isSome := by
  unfold handlePacket
  rw [if_neg (by simp [m.framed])]
  unfold PacketAborts at h
  dsimp only at h
  split at h
  case h_1 hk =>
    obtain ⟨hu, ha, hn, hd⟩ := h
    simp only [hk, handleAuth, hu, ha, Bool.false_eq_true, if_false, if_true]
    refine sendAuthResponse_aborts ?_ hd
    simpa [setTransport, ATransport.nextKey, ATransport.key] using hn
  case h_2 hk =>
    obtain ⟨ho, h₀, h₁, h⟩ := h
    simp only [hk, handleOpen, ho, h₀, h₁, Bool.not_true, Bool.false_or, decide_false,
      Bool.false_eq_true, if_false, bne_self_eq_false]
    split
    case isTrue => rfl
    case isFalse hp =>
      split
      case isTrue => rfl
      case isFalse hr =>
        obtain ⟨hs, hi⟩ := (h.resolve_left hp).resolve_left (by simpa using hr)
        rw [if_neg (by simp [hs])]
        exact acceptOpen_aborts h₀ hi
  case h_3 => exact h.elim

theorem connectToService_aborts {service : Bytes} (hs : hostServiceToSocket service = .localSocket)
    (h : s.IdsExhausted) : (s.connectToService r p service os).1.aborted.isSome := by
  have h₁ := aborted_createLocalSocket_of_exhausted (t := none) h
  simp only [connectToService, hs, aborted_localSocketReady]
  refine SameEnv.close.aborted ?_
  change (((s.createLocalSocket none).1.sendStatus p (ascii "OKAY")).restoreOps p).aborted.isSome
  rw [aborted_restoreOps]
  exact h₁

theorem connectToDevice_aborts (hss : s.sock r = some d) (hp : s.sock p = some c) (ne : r ≠ p)
    (h : s.OpenAborts t dest) : (s.connectToDevice r p t dest).aborted.isSome := by
  have hp₁ : (s.unlink r p).sock p = some { c with peer := none } := by
    simp [sock_unlink hss hp ne, ne.symm]
  simp only [connectToDevice, hp₁]
  refine SameEnv.close.aborted ?_
  have hp₂ : ((s.unlink r p).put p
      { c with peer := none, ops := .localNotify, transport := some t }).sock p =
        some { c with peer := none, ops := .localNotify, transport := some t } := by
    simp [sock_put hp₁]
  exact connectToRemote_aborts hp₂ rfl rfl ((openAborts_congr rfl).mpr h)

theorem smartSocketEnqueue_aborts (hss : s.sock r = some d) (dp : d.peer = some p)
    (hp : s.sock p = some c) (ne : r ≠ p)
    (h : s.Fatal d os (SmartRequest.parse (d.smartSocketData ++ data))) :
    (s.smartSocketEnqueue r data os).1.aborted.isSome := by
  simp only [smartSocketEnqueue, hss]
  split
  case h_1 hn => cases dp.symm.trans hn
  case h_2 p' hp' =>
    cases dp.symm.trans hp'
    generalize SmartRequest.parse (d.smartSocketData ++ data) = request at h ⊢
    cases request
    case host host =>
      obtain ⟨hu, hl, hi⟩ := h
      simp only [hu]
      exact connectToService_aborts hl hi
    case device dest =>
      obtain ⟨t, ht, hon, ho⟩ := h
      have hss₁ (e) : (s.put r e).sock r = some e := by simp [sock_put hss]
      have hp₁ (e) : (s.put r e).sock p = some c := by simp [sock_put hss, ne.symm, hp]
      simp only [ht]
      split
      case isTrue =>
        exact connectToDevice_aborts (hss₁ _) (hp₁ _) ne ((openAborts_congr rfl).mpr ho)
      case isFalse h => exact absurd hon h
    all_goals exact h.elim

@[simp]
theorem aborted_pauseReading : (s.pauseReading r).aborted = s.aborted := by
  unfold pauseReading
  split
  case h_1 => rfl
  case h_2 => split <;> rfl

theorem flushOutgoing_aborts {s₀ : Looper} (f : AfterFlush s₀ s r c₀ c ev os) (w : s.WF)
    (hr : s.sock r = some c) (cp : c.peer = some p) (hp : s.sock p = some d)
    (ho : d.ops = .smartSocket) (ne : s₀.readData c₀ os ≠ [])
    (h : ∀ (s₁ : Looper) c₁, s₁.sock p = some d → s₁.sock r = some c₁ → s₁.transports = s.transports →
      s₁.localSocketNextId = s.localSocketNextId →
      (s₁.smartSocketEnqueue p (s₀.readData c₀ os) os).1.aborted.isSome) :
    (s.localSocketFlushOutgoing r os).aborted.isSome := by
  have ⟨_, hd, k⟩ := w.peer r c p hr cp
  cases hp.symm.trans hd
  have hread := f.readLoop w hr
  have relays : ((s.emit [.read r (s₀.readData c₀ os)]).relay r p c
      (s₀.readData c₀ os) os).1.aborted.isSome := by
    generalize s₀.readData c₀ os = data at h ⊢
    generalize hc₁ : { c with
      availableSendBytes := c.availableSendBytes.map (· - (data.length : Int)) } = c₁
    have sock₁ (n) : ((s.emit [.read r data]).put r c₁).sock n =
        if n = r then some c₁ else s.sock n := sock_put (s := s.emit [.read r data]) hr
    have hp₁ := (sock₁ p).trans ((if_neg k.ne.symm).trans hp)
    have he := h ((s.emit [.read r data]).put r c₁) c₁ hp₁ ((sock₁ r).trans (if_pos rfl)) rfl rfl
    simp only [relay, hc₁, enqueue, hp₁, ho]
    generalize ((s.emit [.read r data]).put r c₁).smartSocketEnqueue p data os = e at he
    obtain ⟨s₂, _ | _ | _⟩ := e
    · exact he
    · exact he
    · simpa only [aborted_pauseReading] using he
  simp only [localSocketFlushOutgoing, hr, hread, cp, ne, if_false]
  split
  case isTrue => exact SameEnv.close.aborted relays
  case isFalse => exact relays

theorem dispatch_aborts (w : s.WF) (h : s.RequestAborts a) (hs : s.next a = some s') :
    s'.aborted.isSome := by
  have ⟨ss, d, os, request, ⟨r, c, ev, hd, cp, hss, ho, ne, hp⟩, h⟩ := h
  have ⟨_, _, _, _, hr, _⟩ := hd
  have ⟨_, hss', k⟩ := w.peer r c ss hr cp
  cases hss.symm.trans hss'
  have ⟨s₁, c₁, a₁, hr₁, _, f, hs'⟩ := hd.next w hs
  have hss₁ : s₁.sock ss = some d := (f.sock ss k.ne.symm).trans hss
  rw [hs']
  refine flushOutgoing_aborts f (w.acts a₁) hr₁ (f.peer.trans cp) hss₁ ho ne ?_
  intro s₂ c₂ hss₂ hr₂ ht hi
  refine smartSocketEnqueue_aborts hss₂ k.symm hr₂ k.ne.symm ?_
  rwa [hp, Fatal.congr (ht.trans f.transports) (hi.trans f.nextId)]

theorem next_aborts_iff (w : s.WF) (h : s.next a = some s') : s'.aborted.isSome ↔ s.Aborts a := by
  have hn : s.aborted = none := by
    unfold next at h
    split at h
    case isTrue => cases h
    case isFalse hn => simpa using hn
  constructor
  case mp =>
    intro h'
    refine Classical.not_not.mp fun ha => ?_
    simp [next_preserves_aborted w h ha, hn] at h'
  case mpr =>
    intro ha
    have hstep : s.step a = some s' := by
      unfold next at h
      split at h
      case isTrue => cases h
      case isFalse => exact h
    cases a <;> simp only [step, Option.ite_none_right_eq_some, Option.some.injEq] at hstep
    case packet t p os => exact hstep.right ▸ handlePacket_aborts ha
    case dispatch os => exact dispatch_aborts w ha h
    case openService t service => exact hstep ▸ openService_aborts ha
    case accept => exact hstep ▸ acceptClient_aborts ha
    case tlsHandshake t => exact hstep.right ▸ tlsHandshake_aborts ha.left ha.right
    all_goals exact ha.elim

theorem survives (h : Reachable (fun s a => ¬s.Aborts a) s) : s.aborted = none := by
  refine preserved_by_runs (J := fun s => s.aborted = none) .initial h ?_ rfl
  intro s₁ a s₂ w₁ ha hs h₁
  exact (next_preserves_aborted w₁ hs ha).trans h₁

theorem process_survives (h : Reachable (fun s a => ¬s.Aborts a) s) :
    s.aborted = none ∧ ∀ a s', s.next a = some s' → (s'.aborted = none ↔ ¬s.Aborts a) := by
  refine ⟨survives h, fun a s' hs => ?_⟩
  rw [← next_aborts_iff h.wf hs]
  simp

def isSafe (s : Looper) : Action → Bool
  | .packet _ p _ => p.kind == some .cnxn
  | .openService t service =>
    !decide s.IdsExhausted && ((s.transports t).updateReverseConfig service).any fun tr =>
      (UInt32.ofNat (service.length + 1)).toNat ≤ min Apacket.maxPayload tr.maxPayload
  | _ => false

theorem not_aborts_of_isSafe (s : Looper) (a : Action) (h : isSafe s a) : ¬s.Aborts a := by
  cases a <;> simp only [isSafe, Bool.false_eq_true] at h
  case packet t p os => simp_all [Aborts, PacketAborts]
  case openService t service =>
    simp only [Bool.and_eq_true, Bool.not_eq_true', decide_eq_false_iff_not,
      Option.any_eq_true] at h
    obtain ⟨hi, tr, ht, hl⟩ := h
    simp_all [Aborts, OpenAborts]

theorem process_survives_service_open : ∃ s : Looper, s.localSocketList = [0] ∧ s.aborted = none ∧
    ∀ a s', s.next a = some s' → (s'.aborted = none ↔ ¬s.Aborts a) := by
  have ⟨s, hs, hl⟩ : ∃ s, Reachable (fun s a => ¬s.Aborts a) s ∧ s.localSocketList = [0] :=
    Reach.exists_of_guarded not_aborts_of_isSafe
      [.packet 0 .connect {}, .openService 0 (ascii "shell:")] (by decide +kernel)
  exact ⟨s, hl, process_survives hs⟩

-- A device that asks for TLS makes the handshake thread look for a key, and one that opens an address
-- which was never forwarded is taken for an attacker. Both end the process.
theorem device_aborts_process :
    (∃ s, exec next {} [.packet 0 (.ofCommand .stls 0x01000000 0 [] (by decide)) {},
      .tlsHandshake 0] = some s ∧ s.aborted = some .noHandshakeKey) ∧
    ∃ s, exec next {} [.packet 0 .connect {},
      .packet 0 (.ofCommand .open 1 0 (ascii "tcp:1") (by decide)) {}] = some s ∧
        s.aborted = some .disallowedConnect := by
  have run₁ : (exec next {} [.packet 0 (.ofCommand .stls 0x01000000 0 [] (by decide)) {},
      .tlsHandshake 0]).any (·.aborted = some .noHandshakeKey) := by decide +kernel
  have run₂ : (exec next {} [.packet 0 .connect {},
      .packet 0 (.ofCommand .open 1 0 (ascii "tcp:1") (by decide)) {}]).any
        (·.aborted = some .disallowedConnect) := by decide +kernel
  simp only [Option.any_eq_true, decide_eq_true_eq] at run₁ run₂
  exact ⟨run₁, run₂⟩

end Looper

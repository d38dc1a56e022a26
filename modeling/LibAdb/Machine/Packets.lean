import LibAdb.Machine.SmartSocket

namespace Looper

variable {s : Looper} {r : Ref} {c d : ASocket} {t : Tid} {P : Looper → Act → Prop}

theorem WF.mem_list (w : s.WF) (h : r ∈ s.localSocketList) :
    ∃ c, s.sock r = some c ∧ c.ops.isLocal ∧ c.closing = false :=
  (w.list r).mp h

theorem findLocalSocket_mem (h : s.findLocalSocket i j = some r) : r ∈ s.localSocketList := by
  unfold findLocalSocket at h
  split at h
  case h_1 => cases h
  case h_2 n hn =>
    split at h
    case isTrue =>
      cases h
      exact List.mem_of_find?_eq_some hn
    case isFalse => cases h

theorem findLocalSocket_peer (h : s.findLocalSocket i j = some r) (hr : s.sock r = some c)
    (h₀ : j ≠ 0) : ∃ d p, c.peer = some p ∧ s.sock p = some d ∧ d.id = j := by
  unfold findLocalSocket at h
  split at h
  case h_1 => cases h
  case h_2 n hn =>
    split at h
    case isTrue hj =>
      cases h
      simp only [hr, h₀, beq_iff_eq, Bool.or_eq_true, false_or, Option.bind_some,
        Option.any_eq_true, peerOf, Option.bind_eq_some_iff] at hj
      obtain ⟨d, ⟨p, cp, hd⟩, hid⟩ := hj
      exact ⟨d, p, cp, hd, hid⟩
    case isFalse => cases h

def HangsUp (s : Looper) (r : Ref) (b : Act) : Prop :=
  b = .socket r .hangUp ∨
    b.Closes (fun n => n = r ∨ (s.sock r).bind (·.peer) = some n) (fun _ => False)

theorem HangsUp.routine (h : s.HangsUp r b) : b.Routine := by
  rcases h with h | h
  · simp [h, Act.Routine]
  · exact h.routine

theorem HangsUp.near (h : s.HangsUp r b) (hn : n ∈ b.touches) :
    n = r ∨ (s.sock r).bind (·.peer) = some n := by
  rcases h with h | h
  · exact .inl <| by simpa [h, Act.touches] using hn
  · exact Classical.not_not.mp fun ne => h.not_touches ne hn

theorem hangUp_closes (w : s.WF) (h : r ∈ s.localSocketList) :
    Acts (fun _ => s.HangsUp r) s ((s.emit [.closedByRemote r]).close r) := by
  have ⟨c, hr, l, hc⟩ := w.mem_list h
  have h₁ : Acts (fun _ => s.HangsUp r) s (s.emit [.closedByRemote r]) := by
    have h : Acts (fun _ => s.HangsUp r) s ((s.put r c).emit [.closedByRemote r]) :=
      .socket hr (.hangUp l) (.inl rfl)
    rwa [put_self hr] at h
  refine h₁.trans <| (close_acts (w.acts h₁) (c := c) hr ?_ (.inl rfl) ?_ ?_).mono fun _ _ => .inr
  · grind [SocketOps.isLocal]
  · intro p cp
    simp [hr, cp]
  · simp [hc]

section

variable (routine : ∀ s a, a.Routine → P s a)

include routine

theorem sendPacket_routine : Acts P s (s.sendPacket none t m) :=
  sendPacket_acts (routine _ .other trivial) (.inl rfl)

theorem hangUp_acts (w : s.WF) (h : r ∈ s.localSocketList) :
    Acts P s ((s.emit [.closedByRemote r]).close r) :=
  (hangUp_closes w h).mono fun s' b hb => routine s' b hb.routine

theorem handleStls_acts
    (hkeep : ∀ s' tr, linkOf tr = linkOf (s'.transports t) → P s' (.transport t tr)) :
    Acts P s (s.handleStls t) := by
  have h : Acts P s (s.setTransport t { s.transports t with
      useTls := true, handshakes := (s.transports t).handshakes + 1 }) :=
    .one .transport (hkeep s _ rfl)
  exact h.trans <| sendPacket_routine routine

theorem closeSockets_acts (w : s.WF) (n : Nat) : Acts P s (closeSockets t n s) := by
  induction n generalizing s
  case zero => exact .refl
  case succ n ih =>
    unfold closeSockets
    split
    case h_1 => exact .refl
    case h_2 r hr =>
      have h := hangUp_acts routine w (List.mem_of_find?_eq_some hr)
      exact h.trans <| ih (w.acts h)

variable (hmove : ∀ s' tr, tr.delayedAck = (s'.transports t).delayedAck → P s' (.transport t tr))

include hmove

omit routine in
theorem setTransport_acts (h : tr.delayedAck = (s.transports t).delayedAck) :
    Acts P s (s.setTransport t tr) :=
  .one .transport (hmove s tr h)

theorem handleOffline_acts (w : s.WF) : Acts P s (s.handleOffline t) := by
  simp only [handleOffline]
  split
  case isTrue => exact .refl
  case isFalse =>
    have h : Acts P s (s.setTransport t
        { s.transports t with connectionState := .offline, online := false }) :=
      setTransport_acts hmove rfl
    exact h.trans <| closeSockets_acts routine (w.acts h) _

theorem handleNewConnection_acts (w : s.WF)
    (h : P (s.handleOffline t) (.transport t (connected ((s.handleOffline t).transports t) p))) :
    Acts P s (s.handleNewConnection t p) :=
  (handleOffline_acts routine hmove w).tail h .transport

theorem handleError_acts (w : s.WF) : Acts P s (s.handleError t kicked) := by
  have h : Acts P s (s.handleOffline t) := handleOffline_acts routine hmove w
  simp only [handleError]
  split
  case isTrue => exact h
  case isFalse => exact h.trans <| setTransport_acts hmove (by rfl)

omit hmove in
theorem sendAuthPublickey_acts (ha : os.androidDir = false → P s (.abort .noAndroidDir)) :
    Acts P s (s.sendAuthPublickey t os) := by
  unfold sendAuthPublickey
  split
  case isTrue h => exact .one .abort (ha (by simpa using h))
  case isFalse =>
    split
    case isTrue => exact .refl
    case isFalse => exact sendPacket_routine routine

theorem sendAuthResponse_acts
    (ha : ((s.transports t).nextKey s.keys).key = none → os.androidDir = false →
      ∀ s', P s' (.abort .noAndroidDir)) : Acts P s (s.sendAuthResponse t token os) := by
  simp only [sendAuthResponse]
  split
  case h_1 hk =>
    exact (setTransport_acts hmove (by rfl)).trans <|
      sendAuthPublickey_acts routine fun h => ha hk h _
  case h_2 key hk =>
    have h : Acts P s (s.setTransport t ((s.transports t).nextKey s.keys)) :=
      setTransport_acts hmove rfl
    split
    case isTrue => exact h
    case isFalse => exact h.trans <| sendPacket_routine routine

theorem handleAuth_acts (w : s.WF)
    (ha : (s.transports t).useTls = false → p.arg0 = adbAuthToken →
      ((s.transports t).nextKey s.keys).key = none → os.androidDir = false →
      ∀ s', P s' (.abort .noAndroidDir)) : Acts P s (s.handleAuth t p os) := by
  simp only [handleAuth]
  split
  case isTrue => exact .refl
  case isFalse hu =>
    split
    case isTrue hp =>
      refine (setTransport_acts hmove (by rfl)).trans <|
        sendAuthResponse_acts routine hmove fun hk => ?_
      refine ha (by simpa using hu) hp ?_
      simpa [setTransport, ATransport.nextKey, ATransport.key] using hk
    case isFalse =>
      have h : Acts P s (s.setTransport t { s.transports t with connectionState := .offline }) :=
        setTransport_acts hmove rfl
      exact h.trans <| handleOffline_acts routine hmove (w.acts h)

end

theorem transports_closeAllSockets (w : s.WF) : (s.closeAllSockets t).transports = s.transports := by
  have h : Acts (fun _ b => b.Routine) s (s.closeAllSockets t) :=
    closeSockets_acts (fun _ _ h => h) w _
  refine h.invariant (I := fun s' => s'.transports = s.transports) ?_ rfl
  intro s₁ b s₂ hb hs k
  refine (hs.frame.transports ?_).trans k
  rintro t tr rfl
  exact hb

theorem transports_handleOffline (w : s.WF) (h : (s.transports t).connectionState ≠ .offline) :
    (s.handleOffline t).transports t =
      { s.transports t with connectionState := .offline, online := false } := by
  have w₁ : (s.setTransport t { s.transports t with
      connectionState := .offline, online := false }).WF :=
    w.acts (.one (P := fun _ _ => True) .transport trivial)
  simp only [handleOffline, if_neg h, transports_closeAllSockets w₁]
  simp [setTransport]

theorem handleOffline_offline (w : s.WF) :
    ((s.handleOffline t).transports t).connectionState = .offline := by
  by_cases h : (s.transports t).connectionState = .offline
  case pos => simp [handleOffline, h]
  case neg => rw [transports_handleOffline w h]

theorem tlsHandshake_acts
    (hkeep : ∀ s' tr, linkOf tr = linkOf (s'.transports t) → P s' (.transport t tr))
    (ha : (s.transports t).key = none → ((s.transports t).nextKey s.keys).key = none →
      ∀ s', P s' (.abort .noHandshakeKey)) : Acts P s (s.tlsHandshake t) := by
  have h (tr) (hl : linkOf tr = linkOf (s.transports t)) : Acts P s (s.setTransport t tr) :=
    .one .transport (hkeep s tr hl)
  simp only [tlsHandshake]
  split
  case isTrue => exact h _ rfl
  case isFalse hk =>
    split
    case isTrue => exact h _ rfl
    case isFalse hn =>
      refine (h _ (by rfl)).tail (ha ?_ ?_ _) .abort
      · simpa [ATransport.key] using hk
      · simpa [ATransport.nextKey, ATransport.key] using hn

theorem MayBeReady.of_permitted (hr : s'.sock r = some c) (hp : (s'.history r).permitted)
    (hc : ∀ x, c.availableSendBytes = some x → 0 < x ∨ s.WeakGrant a r) : s.MayBeReady a s' r := by
  intro c' _ _ h _ _ _
  cases hr.symm.trans h
  exact ⟨hp, hc⟩

theorem MayBeReady.of_not_remote (h : ∀ c p d, s'.sock r = some c → c.peer = some p →
    s'.sock p = some d → d.ops ≠ .remoteSocket) : s.MayBeReady a s' r :=
  fun c p d hr hp hd ho => absurd ho (h c p d hr hp hd)

def newRemoteSocket (id : UInt32) (t : Tid) : ASocket :=
  { ops := .remoteSocket, id, transport := some t }

theorem createRemoteSocket_eq {id : UInt32} (h : id ≠ 0) :
    s.createRemoteSocket id t = (s.create (newRemoteSocket id t), s.sockets.next) := by
  simp only [createRemoteSocket, h, if_false]
  rfl

theorem newRemoteSocket_fresh {id : UInt32} : (newRemoteSocket id t).Fresh := by
  constructor <;> simp [newRemoteSocket, SocketOps.isLocal]

theorem createRemote_step {id : UInt32} :
    Act.Step s (.create s.sockets.next) (s.create (newRemoteSocket id t)) :=
  .create newRemoteSocket_fresh (by simp [newRemoteSocket, SocketOps.isLocal])

theorem readyEffect_of_plain (h : (s.transports t).delayedAck = false) :
    s.readyEffect r i j t n = s.readyEffect r i j t m := by
  simp [readyEffect, readyPayload, h]

theorem create_put (hr : s.sock r = some c) : (s.put r e).create d = (s.create d).put r e := by
  have h : (s.sockets.modify r fun _ => e).alloc d = (s.sockets.alloc d).modify r fun _ => e :=
    Store.modify_alloc (Store.lt_next hr)
  simp only [create, put, h]
  rfl

theorem link_put (ne : r ≠ p) : ((s.put r c).link r p).put r e = (s.link r p).put r e := by
  have h : (((s.sockets.modify r fun _ => c).modify r ({ · with peer := some p })).modify p
      ({ · with peer := some r })).modify r (fun _ => e) =
      ((s.sockets.modify r ({ · with peer := some p })).modify p
        ({ · with peer := some r })).modify r (fun _ => e) := by
    refine Store.ext rfl fun n => ?_
    simp only [Store.get_modify]
    by_cases hr : n = r
    case pos => cases s.sockets.get r <;> simp [hr, ne]
    case neg => simp [hr, ne.symm]
  simp only [link, setPeer, put, h]

-- The new stream as `acceptOpen` leaves it. Its socket is bound to the transport together with the
-- credit it gets.
def accepted (s : Looper) (t : Tid) (p : Apacket) : Looper :=
  let r := s.sockets.next
  let c : ASocket := { s.newLocalSocket none with peer := some (r + 1) }
  ((((s.createLocalSocket none).1.create (newRemoteSocket p.arg0 t)).link r (r + 1)).put r
    (c.boundTo t (s.transports t) c.ops p.arg1.toNat)).emit
      [.accepted r, s.readyEffect r c.id p.arg0 t s.delayedAckBytes.toUInt32]

theorem create_pair (s : Looper) (id : UInt32) (t : Tid) :
    ∃ s₂, (s.createLocalSocket none).1.create (newRemoteSocket id t) = s₂ ∧
      s₂.sock s.sockets.next = some (s.newLocalSocket none) ∧
      s₂.sock (s.sockets.next + 1) = some (newRemoteSocket id t) ∧
      s₂.transports = s.transports ∧ s₂.delayedAckBytes = s.delayedAckBytes ∧
      ∀ n, s₂.history n = s.history n := by
  refine ⟨_, rfl, ?_, ?_, transports_createLocalSocket, window_createLocalSocket,
    fun _ => history_createLocalSocket⟩
  · simp [sock_create, sock_newLocalSocket]
  · simp [sock_create]

theorem acceptOpen_eq (h₀ : p.arg0 ≠ 0) :
    s.acceptOpen t p = (s.accepted t p).localSocketReady s.sockets.next := by
  have ⟨s₂, hs₂, hr₂, hp₂, tr₂, win₂, _⟩ := s.create_pair p.arg0 t
  have r₁ : (s.createLocalSocket (some t)).2 = s.sockets.next := rfl
  have ne : s.sockets.next ≠ s.sockets.next + 1 := by simp
  have hput : ((s.createLocalSocket none).1.put s.sockets.next
      (s.newLocalSocket (some t))).sockets.next = s.sockets.next + 1 := next_createLocalSocket
  simp only [acceptOpen, accepted, createLocalSocket_eq, r₁, createRemoteSocket_eq h₀,
    create_put sock_newLocalSocket, hput, hs₂]
  generalize s.sockets.next = r at *
  have hr₃ : ((s₂.put r (s.newLocalSocket (some t))).link r (r + 1)).sock r =
      some { s.newLocalSocket (some t) with peer := some (r + 1) } := by
    have hr : (s₂.put r (s.newLocalSocket (some t))).sock r = some (s.newLocalSocket (some t)) := by
      simp [sock_put hr₂]
    have hp : (s₂.put r (s.newLocalSocket (some t))).sock (r + 1) =
        some (newRemoteSocket p.arg0 t) := by simp [sock_put hr₂, hp₂]
    simp [sock_link hr hp ne]
  have tr₃ (es) : (((s₂.put r (s.newLocalSocket (some t))).link r (r + 1)).emit es).transports =
      s.transports := tr₂
  have ready (e n) : (((((s₂.put r (s.newLocalSocket (some t))).link r (r + 1)).emit
      [.accepted r]).put r e).sendReady (some r) s.localSocketNextId p.arg0 t n) =
        ((s₂.link r (r + 1)).put r e).emit
          [.accepted r, s.readyEffect r s.localSocketNextId p.arg0 t n] := by
    have h : ((s₂.put r (s.newLocalSocket (some t))).link r (r + 1)).put r e =
        (s₂.link r (r + 1)).put r e := link_put ne
    have heq : (((s₂.put r (s.newLocalSocket (some t))).link r (r + 1)).emit [.accepted r]).put r e =
        ((s₂.link r (r + 1)).put r e).emit [.accepted r] := by rw [emit_put, h]
    have ht : (((s₂.link r (r + 1)).put r e).emit [.accepted r]).transports = s.transports := tr₂
    simp only [heq, sendReady, sendPacket, emit_emit, ht]
    rfl
  have win₃ (es) : (((s₂.put r (s.newLocalSocket (some t))).link r (r + 1)).emit
      es).delayedAckBytes = s.delayedAckBytes := win₂
  simp only [sock_emit, hr₃, tr₃, win₃, ASocket.boundTo]
  split
  case isTrue => exact congrArg (·.localSocketReady r) (ready _ _)
  case isFalse hd =>
    have hd : (s.transports t).delayedAck = false := by simpa using hd
    have hself := put_self (s := ((s₂.put r (s.newLocalSocket (some t))).link r (r + 1)).emit
      [.accepted r]) hr₃
    have h := ready { s.newLocalSocket (some t) with peer := some (r + 1) } 0
    rw [hself] at h
    refine congrArg (·.localSocketReady r) (h.trans ?_)
    rw [readyEffect_of_plain hd]
    rfl

theorem sock_acceptOpen (h₀ : p.arg0 ≠ 0) : ∃ c, (s.acceptOpen t p).sock s.sockets.next = some c ∧
    c.availableSendBytes = if (s.transports t).delayedAck then some (p.arg1.toNat : Int) else none := by
  have ne : s.sockets.next ≠ s.sockets.next + 1 := by simp
  have ⟨_, hs, hr, hp, _⟩ := s.create_pair p.arg0 t
  have hl := (sock_link (n := s.sockets.next) hr hp ne).trans (if_pos rfl)
  have ha : (s.accepted t p).sock s.sockets.next = some (ASocket.boundTo
      { s.newLocalSocket none with peer := some (s.sockets.next + 1) } t (s.transports t)
      .localSocket p.arg1.toNat) := (sock_put (hs ▸ hl)).trans (if_pos rfl)
  rw [acceptOpen_eq h₀]
  exact ⟨_, (sock_localSocketReady ha rfl).trans (if_pos rfl), rfl⟩

theorem handlePacket_of_accepts {p : ReceivedPacket} (h : s.accepts t p.toApacket os) :
    s.handlePacket t p.toApacket os = s.acceptOpen t p.toApacket := by
  simp only [accepts, Bool.and_eq_true, decide_eq_true_eq, bne_iff_ne, beq_iff_eq] at h
  have ⟨⟨⟨⟨⟨⟨hk, online⟩, h₀⟩, hd⟩, payload⟩, reverse⟩, service⟩ := h
  unfold handlePacket
  rw [if_neg (by simp [p.framed])]
  simp [hk, handleOpen, online, h₀, hd, payload, reverse, service]

theorem acceptOpen_acts (w : s.WF) (ha : s.accepts t p.toApacket os)
    (hi : s.IdsExhausted → s.Aborts (.packet t p os)) :
    Acts (s.Allowed (.packet t p os)) s (s.acceptOpen t p.toApacket) := by
  have h₀ : p.arg0 ≠ 0 := by simp_all [accepts]
  have h₁ : (s.transports t).delayedAck → p.arg1 ≠ 0 := by simp_all [accepts]
  have ne : s.sockets.next ≠ s.sockets.next + 1 := by simp
  have hh (n) (hn : s.sockets.next ≤ n) : s.history n = {} := w.fresh n hn
  rw [acceptOpen_eq h₀]
  have a₁ : Acts (s.Allowed (.packet t p os)) s (s.createLocalSocket none).1 :=
    createLocalSocket_acts (fun _ => trivial) (fun h => ⟨hi h, by simp⟩)
  have a₂ : Acts (s.Allowed (.packet t p os)) s
      ((s.createLocalSocket none).1.create (newRemoteSocket p.arg0 t)) :=
    a₁.tail (a := Act.create (s.createLocalSocket none).1.sockets.next) trivial createRemote_step
  have ⟨s₂, hs₂, hr₂, hp₂, tr₂, win₂, hist₂⟩ := s.create_pair p.arg0 t
  rw [hs₂] at a₂
  simp only [accepted, hs₂]
  generalize hr : s.sockets.next = r at *
  have a₃ := a₂.tail (a := Act.link r (r + 1))
    ⟨Nat.le_succ_of_le <| Nat.le_of_eq hr, .inl <| Nat.le_of_eq hr⟩ <|
    .link hr₂ hp₂ ne rfl rfl rfl rfl rfl
      (by simp [hist₂, hh r (Nat.le_refl _), newLocalSocket])
      (by simp [hist₂, hh (r + 1) (Nat.le_succ _), newRemoteSocket]) (by simp [newLocalSocket])
      (by simp [newRemoteSocket])
  have sock₃ (n) := sock_link (n := n) hr₂ hp₂ ne
  have hr₃ : (s₂.link r (r + 1)).sock r =
      some { s.newLocalSocket none with peer := some (r + 1) } := by simp [sock₃]
  have hp₃ : (s₂.link r (r + 1)).sock (r + 1) =
      some { newRemoteSocket p.arg0 t with peer := some r } := by simp [sock₃]
  have hn : (s₂.link r (r + 1)).history r = {} := by simp [hist₂, hh r (Nat.le_refl _)]
  have tr₃ : (s₂.link r (r + 1)).transports = s.transports := tr₂
  have win₃ : (s₂.link r (r + 1)).delayedAckBytes = s.delayedAckBytes := win₂
  generalize s₂.link r (r + 1) = s₃ at a₃ hr₃ hp₃ hn tr₃ win₃ ⊢
  generalize hc : { s.newLocalSocket none with peer := some (r + 1) } = c at hr₃ ⊢
  have l : c.ops.isLocal := by simp [← hc, newLocalSocket, SocketOps.isLocal]
  have a₄ := a₃.trans <| .socket hr₃
    (.accepted (t := t) (n := p.arg1) l (by simp [← hc]) hp₃ rfl (by simp [hn]) (by rwa [tr₃])
      ⟨by simp [← hc, newLocalSocket], by simp [hn], by simp [hn], by simp [hn]⟩)
    ⟨Nat.le_of_eq hr, win₃, p, os, rfl, ha, rfl⟩
  have ready : s₃.readyEffect r c.id p.arg0 t s₃.delayedAckBytes.toUInt32 =
      s.readyEffect r c.id p.arg0 t s.delayedAckBytes.toUInt32 := by
    simp only [readyEffect, readyPayload, tr₃, win₃]
  have hid : ({ newRemoteSocket p.arg0 t with peer := some r } : ASocket).id = p.arg0 := rfl
  rw [hid, ready, tr₃] at a₄
  have hops : (s.newLocalSocket none).ops = c.ops := by rw [← hc]
  have hids : (s.newLocalSocket none).id = c.id := by rw [← hc]
  rw [hops, hids]
  have hr₄ (es) : ((s₃.put r (c.boundTo t (s.transports t) c.ops p.arg1.toNat)).emit es).sock r =
      some (c.boundTo t (s.transports t) c.ops p.arg1.toNat) := by simp [sock_put hr₃]
  refine a₄.trans <| localSocketReady_acts (hr₄ _) <|
    MayBeReady.of_permitted (hr₄ _) ?_ fun x hx => .inl (ASocket.boundTo_pos h₁ hx)
  simp only [history_emit, History.steps_cons, History.steps_nil, History.step_readyEffect]
  simp [History.step, History.subject, History.record]

theorem handleOpen_acts (w : s.WF) (hk : p.kind = some .open) (hp : p.toApacket = q) :
    Acts (s.Allowed (.packet t p os)) s (s.handleOpen t q os) := by
  have aborts (h : s.PacketAborts t q os) : s.Aborts (.packet t p os) := by rwa [← hp] at h
  rw [hp] at hk
  have close (i j) : Acts (s.Allowed (.packet t p os)) s (s.sendClose i j t) :=
    sendPacket_routine fun _ _ => Allowed.of_routine
  simp only [PacketAborts, hk] at aborts
  simp only [handleOpen]
  split
  case isTrue => exact .refl
  case isFalse h₁ =>
    simp only [Bool.or_eq_true, Bool.not_eq_true', decide_eq_true_eq, not_or,
      Bool.not_eq_false] at h₁
    split
    case isTrue => exact close _ _
    case isFalse h₂ =>
      have h₂ : (s.transports t).delayedAck = (q.arg1 != 0) := by simpa using h₂
      split
      case isTrue h₃ => exact .one .abort ⟨aborts ⟨h₁.left, h₁.right, h₂, .inl h₃⟩, by simp⟩
      case isFalse =>
        split
        case isTrue h₃ =>
          exact .one .abort
            ⟨aborts ⟨h₁.left, h₁.right, h₂, .inr <| .inl <| by simpa using h₃⟩, by simp⟩
        case isFalse =>
          split
          case isTrue => exact close _ _
          case isFalse h₃ =>
            subst hp
            refine acceptOpen_acts w ?_ fun hi => ?_
            · simp_all [accepts]
            exact aborts ⟨h₁.left, h₁.right, h₂, .inr <| .inr ⟨by simpa using h₃, hi⟩⟩

theorem localSocketReady_idem (hr : s.sock r = some c) (l : c.ops.isLocal) :
    (s.localSocketReady r).localSocketReady r = s.localSocketReady r := by
  have hr' : (s.localSocketReady r).sock r =
      some { c with ops := .localSocket, fdeRead := true } := by simp [sock_localSocketReady hr l]
  generalize s.localSocketReady r = s' at hr' ⊢
  simp only [localSocketReady, hr']
  exact put_self hr'

theorem attach_acts (w : s.WF) (hr : s.sock r = some c) (l : c.ops.isLocal) (o : c.closing = false)
    (cp : c.peer = none) (h₀ : i ≠ 0) (ha : s.Acks a r t m) (ht : target = some r) :
    Acts (s.Serves a target) s (s.attach r t i m) := by
  have ne : r ≠ s.sockets.next := Store.ne_next hr
  have near (n) (h : n = r ∨ n = s.sockets.next) : ∃ r, target = some r ∧ s.Near r n :=
    ⟨r, ht, h.imp id fun h => .inr (Nat.le_of_eq h.symm)⟩
  have a₁ : Acts (s.Serves a target) s (s.create (newRemoteSocket i t)) :=
    .one createRemote_step ⟨trivial, by simpa [Act.touches] using near _ (.inr rfl)⟩
  have hr₁ : (s.create (newRemoteSocket i t)).sock r = some c := by simp [sock_create, ne, hr]
  have hp₁ : (s.create (newRemoteSocket i t)).sock s.sockets.next = some (newRemoteSocket i t) := by
    simp [sock_create]
  have hh : ((s.create (newRemoteSocket i t)).history s.sockets.next).opened = false := by
    simp [w.fresh _ (Nat.le_refl _)]
  have hw : (s.create (newRemoteSocket i t)).delayedAckBytes = s.delayedAckBytes := rfl
  have hhr : (s.create (newRemoteSocket i t)).history r = s.history r := rfl
  simp only [attach, createRemoteSocket_eq h₀]
  generalize s.create (newRemoteSocket i t) = s₁ at a₁ hr₁ hp₁ hh hw hhr ⊢
  generalize hp : s.sockets.next = p at ne hp₁ hh near ⊢
  have a₂ := a₁.tail (a := Act.attach r p t m)
    ⟨⟨ha, ⟨c, hr, cp⟩, Nat.le_of_eq hp, hr₁.trans hr.symm, hw, hhr⟩,
      by simpa [Act.touches] using ⟨near r (.inl rfl), near p (.inr rfl)⟩⟩ <|
    .attach hr₁ hp₁ ne l o rfl cp rfl rfl rfl ⟨hh, rfl⟩
  have hr₂ : (s₁.attached r p c m).sock r = some { c with
      peer := some p
      availableSendBytes := c.credited m s.delayedAckBytes } := by
    simp [sock_attached hr₁ hp₁ ne, hw]
  have hh₂ : ((s₁.attached r p c m).history r).permitted := by
    simp [history_attached, History.step, History.subject, History.record]
  have hlink : (s₁.link r p).sock r = some { c with peer := some p } := by
    simp [sock_link hr₁ hp₁ ne]
  have heq : (s₁.link r p).acknowledged r { c with peer := some p } m = s₁.attached r p c m := rfl
  rw [localSocketAck_eq hlink, heq]
  generalize s₁.attached r p c m = s₂ at a₂ hr₂ hh₂ ⊢
  have ready₂ : s.MayBeReady a s₂ r := by
    refine .of_permitted hr₂ hh₂ fun x hx => ?_
    by_cases hx' : 0 < x
    case pos => exact .inl hx'
    case neg =>
      have hx : c.credited m s.delayedAckBytes = some x := hx
      exact .inr ⟨t, m, c, ha, hr, cp, by simpa [hx] using hx'⟩
  have a₃ := a₂.trans <| localSocketReady_acts hr₂
    ⟨ready₂, by simpa [Act.touches] using near r (.inl rfl)⟩
  split
  case isTrue => rwa [localSocketReady_idem hr₂ l]
  case isFalse => exact a₃

theorem handleOkay_acts (w : s.WF) (hk : p.kind = some .okay) (hp : p.toApacket = q) :
    Acts (s.Serves (.packet t p os) (s.addressee t q)) s (s.handleOkay t q) := by
  simp only [handleOkay]
  split
  case isTrue => exact .refl
  case isFalse h₁ =>
    simp only [Bool.or_eq_true, Bool.not_eq_true', decide_eq_true_eq, not_or,
      Bool.not_eq_false] at h₁
    obtain ⟨⟨ho, h₀⟩, h₁⟩ := h₁
    split
    case h_1 => exact sendPacket_acts ⟨trivial, by simp [Act.touches]⟩ (.inl rfl)
    case h_2 r hf =>
      obtain ⟨c, hr, l, hc⟩ := w.mem_list (findLocalSocket_mem hf)
      split
      case h_2 => exact .refl
      case h_1 c' acked hr' hack =>
        cases hr.symm.trans hr'
        have acks (h : c.peer = none ∨ (s.peerOf c).any (·.id == q.arg0)) :
            s.Acks (.packet t p os) r t acked ∧ s.addressee t q = some r := by
          subst hp
          refine ⟨⟨p, os, c, rfl, hk, ho, h₀, h₁, hf, hack, hr, h⟩, ?_⟩
          simpa [addressee, ho, h₁, hk, h₀, hack, hf, hr] using h
        split
        case h_1 cp =>
          obtain ⟨ha, ht⟩ := acks (.inl cp)
          exact attach_acts w hr l hc cp h₀ ha ht
        case h_2 peer cp =>
          split
          case isFalse => exact .refl
          case isTrue hid =>
            obtain ⟨ha, ht⟩ := acks <| .inr <| by simpa [peerOf, cp] using hid
            have near : ∀ n ∈ [r], ∃ r, s.addressee t q = some r ∧ s.Near r n := by simp [ht, Near]
            refine localSocketAck_acts hr l hc ⟨⟨⟨t, ha⟩, rfl, rfl, rfl⟩, near⟩ fun hpos => ⟨?_, near⟩
            refine .of_permitted (c := { c with
              availableSendBytes := c.credited acked s.delayedAckBytes }) ?_ ?_ ?_
            · simp [acknowledged, sock_put hr]
            · simp [acknowledged, History.step, History.subject, History.record]
            · intro x hx
              have hx : c.credited acked s.delayedAckBytes = some x := hx
              exact .inl (by simpa [hx] using hpos)

theorem handleClse_acts (w : s.WF) (hk : p.kind = some .clse) :
    Acts (s.Serves a (s.addressee t p)) s (s.handleClse t p) := by
  simp only [handleClse]
  split
  case isTrue => exact .refl
  case isFalse h₁ =>
    split
    case h_1 => exact .refl
    case h_2 r hf =>
      split
      case isTrue => exact .refl
      case isFalse h₂ =>
        have ht : s.addressee t p = some r := by
          simp only [Bool.or_eq_true, Bool.not_eq_true', decide_eq_true_eq, not_or,
            Bool.not_eq_false] at h₁
          have h₂ : p.arg0 ≠ 0 ∨ ((s.sock r).bind s.peerOf).all (·.transport == some t) := by
            cases hp : (s.sock r).bind s.peerOf <;> grind
          simpa [addressee, h₁, hk, hf] using h₂
        refine (hangUp_closes w (findLocalSocket_mem hf)).mono fun s' b hb => ?_
        exact ⟨.of_routine hb.routine, fun n hn => ⟨r, ht, (hb.near hn).imp id .inl⟩⟩

theorem handleWrte_acts {m : ReceivedPacket} (w : s.WF) (hk : m.kind = some .wrte) :
    Acts (s.Serves (.packet t m os) (s.addressee t m.toApacket)) s
      (s.handleWrte t m.toApacket os) := by
  simp only [handleWrte]
  split
  case isTrue => exact .refl
  case isFalse h₁ =>
    split
    case h_1 => exact .refl
    case h_2 r hf =>
      simp only [Bool.or_eq_true, Bool.not_eq_true', decide_eq_true_eq, not_or,
        Bool.not_eq_false] at h₁
      have h₀ := h₁.left.right
      have ht : s.addressee t m.toApacket = some r := by simp [addressee, h₁, hk, hf]
      have ⟨c, hr, l, _⟩ := w.mem_list (findLocalSocket_mem hf)
      have ⟨d, q, cp, hd, hid⟩ := findLocalSocket_peer hf hr h₀
      have ds : d.ops ≠ .smartSocket := fun ho => h₀ (hid ▸ (w.sound q d hd).smart ho)
      refine (localSocketEnqueue_acts w hr l cp hd ds).mono fun _ _ h => ?_
      refine ⟨?_, fun n hn => ⟨r, ht, .inl (h.eq_of_touches hn)⟩⟩
      rcases h with ⟨rfl, rfl⟩ | h
      · exact fun _ => ⟨⟨t, m, os, rfl, hk, rfl, h₀, hf⟩, rfl⟩
      · exact .of_routine h.routine

theorem handlePacket_acts (w : s.WF) (p : ReceivedPacket) :
    Acts (s.Allowed (.packet t p os)) s (s.handlePacket t p.toApacket os) := by
  have routine (s' b) (h : Act.Routine b) : s.Allowed (.packet t p os) s' b := .of_routine h
  have hmove (hk : p.kind = some .cnxn ∨ p.kind = some .auth) (s' : Looper) (tr)
      (h : tr.delayedAck = (s'.transports t).delayedAck) :
      s.Allowed (.packet t p os) s' (.transport t tr) := .move (.inl ⟨p, os, rfl, hk⟩) h
  unfold handlePacket
  rw [if_neg (by simp [p.framed])]
  split
  case h_1 hk => exact handleNewConnection_acts routine (hmove (.inl hk)) w (.connect rfl hk rfl rfl)
  case h_2 => exact handleStls_acts routine fun _ _ => .keep
  case h_3 hk =>
    refine handleAuth_acts routine (hmove (.inr hk)) w fun hu ht hn hd _ => ?_
    simp [Allowed, Aborts, PacketAborts, hk, hu, ht, hn, hd]
  case h_4 hk => exact handleOpen_acts w hk rfl
  case h_5 hk => exact (handleOkay_acts w hk rfl).mono fun _ _ h => h.left
  case h_6 hk => exact (handleClse_acts w hk).mono fun _ _ h => h.left
  case h_7 hk => exact (handleWrte_acts w hk).mono fun _ _ h => h.left
  case h_8 | h_9 => exact .refl

end Looper

import LibAdb.Machine.Close

namespace Looper

variable {s : Looper} {r p n : Ref} {c d : ASocket} {P : Looper → Act → Prop}

theorem emit_emit : (s.emit es₁).emit es₂ = s.emit (es₁ ++ es₂) := by
  simp [emit]

theorem emit_put : (s.emit es).put r c = (s.put r c).emit es :=
  rfl

theorem ackFlushed_eq (s : Looper) (r : Ref) (c : ASocket) (k : Nat) :
    s.ackFlushed r c k = s.emit (s.ackEffects r c k) := by
  unfold ackFlushed ackEffects
  cases c.transport <;> cases s.peerOf c <;> try exact emit_nil.symm
  case some.some t d =>
    cases c.availableSendBytes
    case some => rfl
    case none =>
      dsimp only
      split <;> [rfl; exact emit_nil.symm]

theorem ackEffects_congr {s' : Looper} (ht : s'.transports = s.transports)
    (hp : s'.peerOf c = s.peerOf c) : s'.ackEffects r c k = s.ackEffects r c k := by
  simp only [ackEffects, readyEffect, readyPayload, ht, hp]

theorem ackEffects_put (w : s.WF) (hr : s.sock r = some c) (cp : c'.peer = c.peer) :
    ((s.put r e).emit es).ackEffects r c' k = s.ackEffects r c' k := by
  refine ackEffects_congr rfl ?_
  simp only [peerOf, cp]
  cases hp : c.peer
  case none => rfl
  case some p =>
    have ⟨_, _, link⟩ := w.peer r c p hr hp
    simp [sock_put hr, link.ne.symm]

end Looper

def Looper.Flushes (s : Looper) (r : Ref) (data : Option Bytes) (s' : Looper) (a : Act) : Prop :=
  s' = s ∧ a = .socket r (.receive data) ∨ a.Closes (· = r) (fun _ => False)

theorem Looper.Flushes.eq_of_touches (h : Looper.Flushes s r data s' a) (hn : n ∈ a.touches) :
    n = r := by
  rcases h with h | h
  · simpa [h, Act.touches] using hn
  · exact Classical.not_not.mp fun ne => h.not_touches ne hn

namespace Looper

variable {s : Looper} {r p n : Ref} {c d : ASocket} {P : Looper → Act → Prop}

theorem flush_acts (w : s.WF) (hr : s.sock r = some c) (l : c.ops.isLocal) (data : Option Bytes)
    (hd : data.isSome → ∃ p d, c.peer = some p ∧ s.sock p = some d ∧ d.ops ≠ .smartSocket)
    (writev : Ref → Bytes → WriteResult) :
    Acts (s.Flushes r data) s
      (((s.put r (c.queued data)).emit (data.toList.map (.enqueued r))).localSocketFlushIncoming r
        writev).1 := by
  have hr₁ : ((s.put r (c.queued data)).emit (data.toList.map (.enqueued r))).sock r =
      some (c.queued data) := by simp [sock_put hr]
  simp only [localSocketFlushIncoming, hr₁]
  generalize hwr : writev r (c.queued data).packetQueue = wr
  obtain ⟨q, ws, f, hc', _⟩ := c.receive_spec r data wr
  have hput (e : ASocket) (es : List Effect) :
      ((((s.put r (c.queued data)).emit (data.toList.map (.enqueued r))).put r e).emit
        ((c.queued data).writevEffects r wr)).emit es =
      (s.put r e).emit (c.receiveEffects r data wr ++ es) := by
    simp [emit_put, put_put, emit_emit, ASocket.receiveEffects]
  have hp : ((c.queued data).writev wr).1.peer = c.peer := by rw [hc']
  have hack (k) : ((((s.put r (c.queued data)).emit (data.toList.map (.enqueued r))).put r
      ((c.queued data).writev wr).1).emit ((c.queued data).writevEffects r wr)).ackEffects r
        ((c.queued data).writev wr).1 k = s.ackEffects r ((c.queued data).writev wr).1 k := by
    rw [emit_put, put_put, emit_emit, ackEffects_put w hr hp]
  rw [ackFlushed_eq, hack, hput]
  split
  case isTrue h =>
    simp only [Bool.and_eq_true, Bool.not_eq_true'] at h
    have hb : (c.queued data |>.writev wr).1 =
        { (c.queued data |>.writev wr).1 with fdeWrite := c.fdeWrite } := by simp [hc']
    have h₁ : Acts (s.Flushes r data) s ((s.put r ((c.queued data).writev wr).1).emit
        (c.receiveEffects r data wr ++
          s.ackEffects r ((c.queued data).writev wr).1 ((c.queued data).writev wr).2)) := by
      have h' : Acts (s.Flushes r data) s
          ((s.put r { ((c.queued data).writev wr).1 with fdeWrite := c.fdeWrite }).emit
            (c.receiveEffects r data wr ++
              s.ackEffects r ((c.queued data).writev wr).1 ((c.queued data).writev wr).2)) :=
        .socket hr (.receive l (by simp [h.right]) hd) (.inl ⟨rfl, rfl⟩)
      rwa [← hb] at h'
    generalize c.receiveEffects r data wr ++
      s.ackEffects r ((c.queued data).writev wr).1 ((c.queued data).writev wr).2 = es at h₁ ⊢
    have hr₂ : ((s.put r ((c.queued data).writev wr).1).emit es).sock r =
        some ((c.queued data).writev wr).1 := by
      simp [sock_put hr]
    have w₂ := w.acts h₁
    have hp := ((w₂.sound _ _ hr₂).closing h.left).left
    have cr : ((c.queued data).writev wr).1.ops ≠ .remoteSocket := by
      rw [hc']
      grind [SocketOps.isLocal]
    have h₂ : Acts (fun _ => Act.Closes (· = r) (fun _ => False)) _ _ :=
      close_acts w₂ hr₂ cr rfl (by simp [hp]) (by simp [h.right])
    exact h₁.trans <| h₂.mono fun _ _ => .inr
  case isFalse h =>
    rw [emit_put, put_put]
    exact .socket hr (.receive l id hd) (.inl ⟨rfl, rfl⟩)

theorem localSocketFlushIncoming_acts (w : s.WF) (hr : s.sock r = some c) (l : c.ops.isLocal) :
    Acts (s.Flushes r none) s (s.localSocketFlushIncoming r writev).1 := by
  have h := flush_acts w hr l none (by simp) writev
  have hq : c.queued none = c := by simp [ASocket.queued]
  simpa [hq, put_self hr] using h

theorem localSocketEnqueue_acts (w : s.WF) (hr : s.sock r = some c) (l : c.ops.isLocal)
    (cp : c.peer = some p) (hp : s.sock p = some d) (ds : d.ops ≠ .smartSocket) :
    Acts (s.Flushes r (some data)) s (s.localSocketEnqueue r data writev).1 := by
  have h := flush_acts w hr l (some data) (fun _ => ⟨p, d, cp, hp, ds⟩) writev
  simp only [localSocketEnqueue, hr]
  split <;> simp_all [ASocket.queued]

theorem localSocketReady_acts (hr : s.sock r = some c) (hp : P s (.socket r .ready)) :
    Acts P s (s.localSocketReady r) := by
  simp only [localSocketReady, hr]
  split
  case h_1 ho =>
    have h := SocketAct.Step.ready (s := s) (r := r) (c := c) (by simp [ho, SocketOps.isLocal])
      (List.forall_mem_nil History.Neutral)
    rw [← ho] at h
    exact .put hr h hp
  case h_2 ho =>
    exact .socket hr (.ready (by simp [ho, SocketOps.isLocal]) (by simp [History.Neutral])) hp
  case h_3 => exact .refl

theorem sock_localSocketReady (hr : s.sock r = some c) (l : c.ops.isLocal) :
    (s.localSocketReady r).sock n =
      if n = r then some { c with ops := .localSocket, fdeRead := true } else s.sock n := by
  simp only [localSocketReady, hr]
  split
  case h_1 ho => simp [sock_put hr, ho]
  case h_2 ho => simp [sendStatus, sock_put hr]
  case h_3 h₁ h₂ => grind [SocketOps.isLocal]

def acknowledged (s : Looper) (r : Ref) (c : ASocket) (m : Option Int) : Looper :=
  (s.put r { c with availableSendBytes := c.credited m s.delayedAckBytes }).emit [.acked r m]

theorem localSocketAck_eq (hr : s.sock r = some c) : s.localSocketAck r m =
    if c.availableSendBytes.isSome = m.isSome ∧ (c.credited m s.delayedAckBytes).all (0 < ·) then
      (s.acknowledged r c m).localSocketReady r
    else s.acknowledged r c m := by
  have hself : c.credited m s.delayedAckBytes = c.availableSendBytes →
      s.acknowledged r c m = s.emit [.acked r m] := by
    intro h
    simp only [acknowledged, h, put_self hr]
  cases hc : c.availableSendBytes <;> cases m <;>
    simp_all [localSocketAck, ASocket.credited, acknowledged, emit_put]
  rfl

theorem localSocketAck_acts (hr : s.sock r = some c) (l : c.ops.isLocal) (o : c.closing = false)
    (ha : P s (.socket r (.acked m)))
    (hready : (c.credited m s.delayedAckBytes).all (0 < ·) →
      P (s.acknowledged r c m) (.socket r .ready)) : Acts P s (s.localSocketAck r m) := by
  have h₁ : Acts P s (s.acknowledged r c m) := .socket hr (.acked l o) ha
  have hr₁ : (s.acknowledged r c m).sock r =
      some { c with availableSendBytes := c.credited m s.delayedAckBytes } := by
    simp [acknowledged, sock_put hr]
  rw [localSocketAck_eq hr]
  split
  case isTrue h => exact h₁.trans <| localSocketReady_acts hr₁ <| hready h.right
  case isFalse => exact h₁

def newLocalSocket (s : Looper) (transport : Option Tid) : ASocket :=
  { ops := .localSocket, id := s.localSocketNextId, transport }

theorem sock_createLocalSocket : (s.createLocalSocket t).1.sock n =
    if n = s.sockets.next then some (s.newLocalSocket t) else s.sock n := by
  simp only [createLocalSocket, installLocalSocket]
  split <;> rfl

theorem sock_newLocalSocket :
    (s.createLocalSocket t).1.sock s.sockets.next = some (s.newLocalSocket t) :=
  sock_createLocalSocket.trans (if_pos rfl)

@[simp]
theorem history_createLocalSocket : (s.createLocalSocket t).1.history n = s.history n := by
  simp only [createLocalSocket, installLocalSocket]
  split <;> rfl

@[simp]
theorem next_createLocalSocket : (s.createLocalSocket t).1.sockets.next = s.sockets.next + 1 := by
  simp only [createLocalSocket, installLocalSocket]
  split <;> rfl

@[simp]
theorem transports_createLocalSocket : (s.createLocalSocket t).1.transports = s.transports := by
  simp only [createLocalSocket, installLocalSocket]
  split <;> rfl

@[simp]
theorem window_createLocalSocket :
    (s.createLocalSocket t).1.delayedAckBytes = s.delayedAckBytes := by
  simp only [createLocalSocket, installLocalSocket]
  split <;> rfl

theorem createLocalSocket_acts (hc : ∀ s', P s' (.create s.sockets.next))
    (ha : s.localSocketNextId + 1 = 0 → P s (.abort .idOverflow)) :
    Acts P s (s.createLocalSocket none).1 := by
  have hf : (s.newLocalSocket none).Fresh := by constructor <;> simp [newLocalSocket]
  simp only [createLocalSocket, installLocalSocket]
  split
  case isTrue h =>
    have h₁ : Acts P s (s.abort .idOverflow) := .one .abort (ha h)
    exact h₁.tail (a := Act.create s.sockets.next) (hc _)
      (.create (s := s.abort .idOverflow) (c := s.newLocalSocket none) hf fun _ => ⟨rfl, fun _ => rfl⟩)
  case isFalse h =>
    exact .one (a := Act.create s.sockets.next) (.create hf fun _ => ⟨rfl, fun h' => absurd h' h⟩)
      (hc _)

theorem createLocalSocket_eq : (s.createLocalSocket (some t)).1 =
    (s.createLocalSocket none).1.put s.sockets.next (s.newLocalSocket (some t)) := by
  have h : s.sockets.alloc (s.newLocalSocket (some t)) =
      (s.sockets.alloc (s.newLocalSocket none)).modify s.sockets.next
        fun _ => s.newLocalSocket (some t) := Store.alloc_modify.symm
  simp only [newLocalSocket] at h
  simp only [createLocalSocket, installLocalSocket]
  split <;> simp only [h] <;> rfl

theorem getMaxPayload_eq (cp : c.peer = none) (ct : c.transport = some t) :
    s.getMaxPayload c = min Apacket.maxPayload (s.transports t).maxPayload := by
  simp [getMaxPayload, peerOf, cp, ct]

def linkOf (tr : ATransport) : ConnectionState × Bool × Bool :=
  (tr.connectionState, tr.online, tr.delayedAck)

theorem linkOf_updateReverseConfig {tr tr' : ATransport}
    (h : tr.updateReverseConfig dest = some tr') : linkOf tr' = linkOf tr := by
  unfold ATransport.updateReverseConfig at h
  grind [ATransport.reverseInsert, ATransport.reverseErase, linkOf]

theorem opening_eq (ca : c.availableSendBytes = none) :
    { c with ops, transport := some t : ASocket }.opening tr = c.boundTo t tr ops 0 := by
  unfold ASocket.opening ASocket.boundTo
  split
  case isTrue => rfl
  case isFalse => simp [ca]

theorem connectToRemote_acts (ops : SocketOps) (dest : Bytes) (hr : s.sock r = some c) (l : c.ops.isLocal)
    (o : c.closing = false) (cp : c.peer = none) (ca : c.availableSendBytes = none)
    (lo : ops.isLocal) (hu : s.Unused r c)
    (hkeep : ∀ tr, linkOf tr = linkOf (s.transports t) → P s (.transport t tr))
    (hop : ∀ s', P s' (.socket r (.opened t)))
    (hbind : ∀ s' : Looper, s'.aborted.isSome → P s' (.socket r (.bind t)))
    (hrev : (s.transports t).updateReverseConfig dest = none → P s (.abort .unhandledReverse))
    (hlen : ∀ tr, (s.transports t).updateReverseConfig dest = some tr →
      ¬(UInt32.ofNat (dest.length + 1)).toNat ≤ min Apacket.maxPayload tr.maxPayload →
      ∀ s', P s' (.abort .openTooLong)) :
    Acts P s ((s.put r { c with ops, transport := some t }).connectToRemote r dest) := by
  have hr' : (s.put r { c with ops, transport := some t }).sock r =
      some { c with ops, transport := some t } := by simp [sock_put hr]
  have ht : (s.put r { c with ops, transport := some t }).transports = s.transports := rfl
  simp only [connectToRemote, hr', ht]
  split
  case h_1 h =>
    have h₁ : Acts P s (s.abort .unhandledReverse) := .one .abort (hrev h)
    exact h₁.trans <| .put (s := s.abort .unhandledReverse) hr (.bind l cp lo) (hbind _ rfl)
  case h_2 tr h =>
    have h₁ : Acts P s (s.setTransport t tr) :=
      .one .transport (hkeep tr (linkOf_updateReverseConfig h))
    have hmax : ((s.put r { c with ops, transport := some t }).setTransport t tr).getMaxPayload
        { c with ops, transport := some t } = min Apacket.maxPayload tr.maxPayload := by
      have h := getMaxPayload_eq (s := (s.put r { c with ops, transport := some t }).setTransport t tr)
        (c := { c with ops, transport := some t }) (t := t) cp rfl
      simpa [setTransport] using h
    split
    case isTrue hle =>
      have htr : (s.setTransport t tr).transports t = tr := by simp [setTransport]
      have heq : ((s.put r { c with ops, transport := some t }).setTransport t tr).put r
          ({ c with ops, transport := some t : ASocket }.opening tr) =
            (s.setTransport t tr).put r (c.boundTo t tr ops 0) := by
        rw [opening_eq ca]
        exact put_put (s := s.setTransport t tr)
      have ⟨q, hq, hk, _⟩ := ((s.setTransport t tr).put r (c.boundTo t tr ops 0)).sendPacket_eq
        (some r) t (openPacket { c with ops, transport := some t } tr s.delayedAckBytes dest)
      have h₂ := h₁.trans <| .socket (s := s.setTransport t tr) hr
        (.opened (t := t) l o cp lo (hk.trans Apacket.kind_make) (hu.congr rfl rfl)) (hop _)
      rw [htr, ← hq] at h₂
      rw [heq]
      exact h₂
    case isFalse hle =>
      have h₂ := h₁.tail (hlen tr h (by simpa [hmax, openPacket, Apacket.make] using hle) _) .abort
      exact h₂.trans <| .put (s := (s.setTransport t tr).abort .openTooLong) hr (.bind l cp lo)
        (hbind _ rfl)

theorem sock_connectToRemote_of_ne (h : n ≠ r) : (s.connectToRemote r dest).sock n = s.sock n := by
  unfold connectToRemote
  split
  case h_1 => rfl
  case h_2 c hr =>
    split
    case h_1 => rfl
    case h_2 t _ =>
      split
      case h_1 => rfl
      case h_2 tr _ =>
        dsimp only
        split
        case isTrue => exact (sock_put (s := s.setTransport t tr) hr).trans (if_neg h)
        case isFalse => rfl

end Looper

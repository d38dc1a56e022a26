import LibAdb.Machine.Packets

theorem readLoop_length : (readLoop rs n).1.length ≤ n := by
  fun_induction readLoop rs n
  case case6 bs rs n hb got rest ih =>
    have ih : rest.1.length ≤ n + 1 - got.length := ih
    have hg : got.length ≤ n + 1 := List.length_take_le _ _
    simp only [List.length_append]
    omega
  all_goals simp

namespace Looper

variable {s s₀ : Looper} {r p n : Ref} {c c₀ d : ASocket} {t : Tid}

theorem readData_length : (s.readData c os).length ≤ Apacket.maxPayload := by
  have h : (s.readData c os).length ≤ s.getMaxPayload c := readLoop_length
  simp only [getMaxPayload] at h
  omega

theorem pauseReading_acts (s₀ : Looper) (a : Action) (h : s.Opened r) :
    Acts (s₀.Allowed a) s (s.pauseReading r) ∧ (s.pauseReading r).Opened r := by
  have ⟨c, hr, l, o⟩ := h
  simp only [pauseReading, hr]
  split
  case isTrue =>
    exact ⟨.put hr (.pause l) trivial, { c with fdeRead := false }, by simp [sock_put hr], l, o⟩
  case isFalse => exact ⟨.refl, h⟩

theorem relay_remote (os : Os) (hr : s.sock r = some c) (hp : s.sock p = some d) (k : s.Linked r p c d)
    (ho : d.ops = .remoteSocket) (ht : d.transport = some t)
    (hl : data.length ≤ Apacket.maxPayload) :
    ∃ m : Apacket, m.kind = some .wrte ∧ m.payload = data ∧ m.arg0 = c.id ∧ m.arg1 = d.id ∧
      (s.emit [.read r data]).relay r p c data os =
        ((s.put r (c.spent data)).emit [.read r data, .sent (some r) t m], true) := by
  generalize hc : { c with availableSendBytes := c.availableSendBytes.map (· - data.length) } = c₁
  have sock₁ (n) : ((s.emit [.read r data]).put r c₁).sock n = if n = r then some c₁ else s.sock n :=
    sock_put (s := s.emit [.read r data]) hr
  have hp₁ : ((s.emit [.read r data]).put r c₁).sock p = some d := by
    rw [sock₁, if_neg k.ne.symm, hp]
  have ⟨m, hm, hk, hb, ha₀, ha₁⟩ := ((s.emit [.read r data]).put r c₁).sendPacket_eq (some r) t
    (.make .wrte ((((s.emit [.read r data]).put r c₁).peerOf d).map (·.id) |>.getD 0) d.id data)
  have hid : m.arg0 = c.id := by
    have hpeer : ((s.emit [.read r data]).put r c₁).peerOf d = some c₁ := by
      simp [peerOf, k.symm, sock₁]
    have hc₁ : c₁.id = c.id := by rw [← hc]
    simpa [hpeer, Apacket.make, hc₁] using ha₀
  refine ⟨m, hk.trans Apacket.kind_make, hb, hid, ha₁, ?_⟩
  simp only [relay, enqueue, hc, hp₁, ho, remoteSocketEnqueue, Nat.not_lt.mpr hl, if_false, ht, k.symm,
    hm, pauseReading, sock_emit, sock₁, if_true]
  have hs : c.spent data = { c₁ with
      fdeRead := if c₁.availableSendBytes.all (· ≤ 0) then false else c₁.fdeRead } := by
    rw [← hc]
    rfl
  rw [hs]
  split
  case isTrue => simp [emit_put, put_put, emit_emit]
  case isFalse => simp [emit_put, emit_emit]

theorem enqueue_acts (w : s.WF) (hr : s.sock r = some c) (l : c.ops.isLocal) (cp : c.peer = some p)
    (hp : s.sock p = some d) (ho : d.ops ≠ .remoteSocket)
    (smart : d.ops = .smartSocket → Acts P s (s.smartSocketEnqueue p data os).1 ∧
      ((s.smartSocketEnqueue p data os).2 ≠ .error →
        (s.smartSocketEnqueue p data os).1.Opened r))
    (routine : ∀ s a, a.Routine → P s a)
    (hrecv : ∀ s' r data, s'.remotePeer r = false → P s' (.socket r (.receive (some data)))) :
    Acts P s (s.enqueue p data os).1 ∧
      ((s.enqueue p data os).2 ≠ .error → (s.enqueue p data os).1.Opened r) := by
  have ⟨d', hd', k⟩ := w.peer r c p hr cp
  cases hp.symm.trans hd'
  have hc := w.open_of_peer hr cp
  have hd := w.open_of_peer hp k.symm
  have loc (ld : d.ops.isLocal) : Acts P s (s.localSocketEnqueue p data os.writev).1 ∧
      (s.localSocketEnqueue p data os.writev).1.Opened r := by
    have cs : c.ops ≠ .smartSocket := by grind [SocketOps.isLocal]
    have hn : s.remotePeer p = false := by
      have : c.ops ≠ .remoteSocket := by grind [SocketOps.isLocal]
      simp [remotePeer, hp, peerOf, k.symm, hr, this]
    have h : Acts (s.Flushes p (some data)) s (s.localSocketEnqueue p data os.writev).1 :=
      localSocketEnqueue_acts w hp ld k.symm hr cs
    have hr' := h.frame (n := r) fun _ a h hm => k.ne (h.eq_of_touches hm)
    refine ⟨h.mono fun _ _ h => ?_, c, hr'.left.trans hr, l, hc⟩
    rcases h with ⟨rfl, rfl⟩ | h
    · exact hrecv _ _ _ hn
    · exact routine _ _ h.routine
  simp only [enqueue, hp]
  split
  case h_1 ho' | h_2 ho' =>
    have h := loc (by simp [ho', SocketOps.isLocal])
    exact ⟨h.left, fun _ => h.right⟩
  case h_3 ho' => exact absurd ho' ho
  case h_4 ho' => exact smart ho'
  case h_5 ho' => exact ⟨close_routine routine w hp (by simp [ho']) hd, by simp⟩

-- The state `s` before the read event of `r` is handled, as compared with the state `s₀` before the
-- write event that may have come with it.
structure AfterFlush (s₀ s : Looper) (r : Ref) (c₀ c : ASocket) (ev : FdEvents) (os : Os) : Prop where
  transports : s.transports = s₀.transports
  nextId     : s.localSocketNextId = s₀.localSocketNextId
  next       : s.sockets.next = s₀.sockets.next
  sock       : ∀ n, n ≠ r → s.sock n = s₀.sock n
  peer       : c.peer = c₀.peer
  transport  : c.transport = c₀.transport
  closing    : c.closing = c₀.closing
  full       : c.fdFull = (c₀.flushed r ev os).fdFull
  history    : ∃ written writeFailed okays,
    s.history r = { s₀.history r with written, writeFailed, okays }

namespace AfterFlush

variable {ev : FdEvents} {os : Os} {a : Action}

theorem getMaxPayload (f : AfterFlush s₀ s r c₀ c ev os) (w : s.WF) (hr : s.sock r = some c) :
    s.getMaxPayload c = s₀.getMaxPayload c₀ := by
  have hp : s.peerOf c = s₀.peerOf c₀ := by
    simp only [peerOf, ← f.peer]
    cases cp : c.peer
    case none => rfl
    case some p =>
      obtain ⟨_, _, k⟩ := w.peer r c p hr cp
      exact f.sock p k.ne.symm
  simp only [Looper.getMaxPayload, hp, f.transports, f.transport]

theorem readLoop (f : AfterFlush s₀ s r c₀ c ev os) (w : s.WF) (hr : s.sock r = some c) :
    readLoop os.reads (s.getMaxPayload c) = (s₀.readData c₀ os, s₀.readEof c₀ os) := by
  rw [f.getMaxPayload w hr]
  rfl

theorem smartSocketEnqueue (f : AfterFlush s₀ s r c₀ c ev os) (hd : s₀.Dispatches a r c₀ ev os)
    (cp : c.peer = some p) (hp : s.sock p = some d) (k : s.Linked r p c d)
    (ho : d.ops = .smartSocket) (hdata : s₀.readData c₀ os = data) (ne : data ≠ []) (w' : s'.WF)
    (hp' : s'.sock p = some d) (ht : s'.transports = s.transports)
    (hi : s'.localSocketNextId = s.localSocketNextId) (hn : s'.sockets.next = s.sockets.next) :
    Acts (s₀.Allowed a) s' (s'.smartSocketEnqueue p data os).1 ∧
      ((s'.smartSocketEnqueue p data os).2 ≠ .error →
        (s'.smartSocketEnqueue p data os).1.Opened r) := by
  have hp₀ : s₀.sock p = some d := by rw [← f.sock p k.ne.symm, hp]
  have cp₀ : c₀.peer = some p := by rw [← f.peer, cp]
  have ⟨_, ha, _, _, hr₀, _⟩ := hd
  have aborts (h : s₀.RequestAborts a) : s₀.Aborts a := by rwa [ha] at h ⊢
  have requests (request) (h : SmartRequest.parse (d.smartSocketData ++ data) = request) :
      s₀.Requests a p d os request := by
    subst hdata
    exact ⟨r, c₀, ev, hd, cp₀, hp₀, ho, ne, h⟩
  have opens {t} (hdt : d.transport = some t)
      (ho : connectionStateIsOnline (s'.transports t).connectionState) : s₀.Opens a r t := by
    refine .inl ⟨by simp [Looper.belongs, hr₀, peerOf, cp₀, hp₀, hdt], ?_⟩
    rwa [ht, f.transports] at ho
  refine And.imp_right (fun h hn => (h hn).left) <| smartSocketEnqueue_acts
    (fun _ _ => Allowed.of_routine) (fun _ _ _ h => by simp [Allowed, h]) (fun s' r h => .of_not_remote h) (fun _ r q hq h => ⟨by rwa [hn, f.next] at hq, .inr h⟩) w' hp' ho
    k.symm ?_ (fun _ _ _ => .keep) ?_ ?_ ?_
  · intro request t h hs s' hp'
    exact ⟨⟨d, os, request, requests _ h, hs⟩, by simp [hp', hp₀, k.symm]⟩
  · intro t hdt ho _
    exact opens hdt ho
  · intro t hdt ho _ ha
    exact ⟨opens hdt ho, ha⟩
  · intro hx _ _ hne
    rw [Fatal.congr (ht.trans f.transports) (hi.trans f.nextId)] at hx
    exact ⟨aborts ⟨p, d, os, _, requests _ rfl, hx⟩, hne⟩

theorem relay_acts (f : AfterFlush s₀ s r c₀ c ev os) (hd : s₀.Dispatches a r c₀ ev os) (w : s.WF)
    (hr : s.sock r = some c) (l : c.ops.isLocal) (cp : c.peer = some p)
    (hdata : s₀.readData c₀ os = data) (ne : data ≠ []) :
    Acts (s₀.Allowed a) s ((s.emit [.read r data]).relay r p c data os).1 ∧
      (((s.emit [.read r data]).relay r p c data os).2 →
        ((s.emit [.read r data]).relay r p c data os).1.Opened r) := by
  obtain ⟨d, hp, k⟩ := w.peer r c p hr cp
  have reads : s₀.Reads a r data := ⟨c₀, ev, os, hd, hdata, ne⟩
  have hc := w.open_of_peer hr cp
  by_cases ho : d.ops = .remoteSocket
  case pos =>
    obtain ⟨t, ht⟩ := Option.isSome_iff_exists.mp <| (w.sound p d hp).remote ho
    obtain ⟨m, hm, hb, h₀, h₁, h⟩ := relay_remote os hr hp k ho ht (hdata ▸ readData_length)
    rw [h]
    obtain ⟨_, _, _, _, hr₀, _⟩ := hd
    have remote : s₀.remotePeer r := by
      simp [remotePeer, hr₀, peerOf, ← f.peer, cp, ← f.sock p k.ne.symm, hp, ho]
    obtain ⟨_, _, _, hh⟩ := f.history
    have writes : (s.history r).writes = (s₀.history r).writes := by rw [hh]
    refine ⟨.socket hr (.forward l cp hp ho ht hm hb h₀ h₁) ⟨reads, remote, writes⟩, fun _ => ?_⟩
    exact ⟨c.spent data, by simp [sock_put hr], l, hc⟩
  case neg =>
    generalize hc₁ : { c with
      availableSendBytes := c.availableSendBytes.map (· - (data.length : Int)) } = c₁
    have a₁ : Acts (s₀.Allowed a) s ((s.emit [.read r data]).put r c₁) := by
      rw [← hc₁]
      exact .socket hr (.relay l cp hp ho) reads
    have sock₁ (n) : ((s.emit [.read r data]).put r c₁).sock n =
        if n = r then some c₁ else s.sock n := sock_put (s := s.emit [.read r data]) hr
    have ht : ((s.emit [.read r data]).put r c₁).transports = s.transports := rfl
    have hi : ((s.emit [.read r data]).put r c₁).localSocketNextId = s.localSocketNextId := rfl
    have hn : ((s.emit [.read r data]).put r c₁).sockets.next = s.sockets.next := rfl
    simp only [relay, hc₁]
    generalize (s.emit [.read r data]).put r c₁ = s₁ at a₁ sock₁ ht hi hn ⊢
    have w₁ := w.acts a₁
    have hr₁ : s₁.sock r = some c₁ := by simp [sock₁]
    have hp₁ : s₁.sock p = some d := by simp [sock₁, k.ne.symm, hp]
    have h := enqueue_acts w₁ hr₁ (by simpa [← hc₁] using l) (by simpa [← hc₁] using cp) hp₁ ho
      (fun ho => f.smartSocketEnqueue hd cp hp k ho hdata ne w₁ hp₁ ht hi hn)
      (fun _ _ => Allowed.of_routine) (fun _ _ _ h => by simp [Allowed, h])
    split
    case h_1 s₂ he =>
      rw [he] at h
      exact ⟨a₁.trans h.left, by simp⟩
    case h_2 s₂ he =>
      rw [he] at h
      exact ⟨a₁.trans h.left, fun _ => h.right (by simp)⟩
    case h_3 s₂ he =>
      rw [he] at h
      have hpause := pauseReading_acts s₀ a (h.right (by simp))
      exact ⟨a₁.trans <| h.left.trans hpause.left, fun _ => hpause.right⟩

theorem flushOutgoing_acts (f : AfterFlush s₀ s r c₀ c ev os) (hd : s₀.Dispatches a r c₀ ev os)
    (w : s.WF) (hr : s.sock r = some c) (l : c.ops.isLocal) :
    Acts (s₀.Allowed a) s (s.localSocketFlushOutgoing r os) := by
  have hr₀ := hd.sock
  have hread := f.readLoop w hr
  have cr : c.ops ≠ .remoteSocket := by grind [SocketOps.isLocal]
  generalize hdata : s₀.readData c₀ os = data at hread
  generalize heof : s₀.readEof c₀ os = eof at hread
  have close (s₁) (w₁ : s₁.WF) (hr₁ : s₁.sock r = some c) (he : eof) :
      Acts (s₀.Allowed a) s₁ (s₁.close r) := by
    have h : Acts (fun _ => Act.Closes (fun _ => True) (fun n => s₀.Drops a n)) s₁ (s₁.close r) := by
      refine close_acts w₁ hr₁ cr trivial (fun _ _ => trivial) fun hc hf => ?_
      exact ⟨c₀, ev, os, hd, f.closing ▸ hc, heof.trans he, f.full ▸ hf⟩
    exact h.mono fun _ b h => h.allowed
  simp only [localSocketFlushOutgoing, hr, hread]
  cases cp : c.peer
  case none =>
    have a₁ : Acts (s₀.Allowed a) s (if data = [] then s else s.emit [.read r data]) := by
      split
      case isTrue => exact .refl
      case isFalse ne =>
        have h : Acts (s₀.Allowed a) s ((s.put r c).emit [.read r data]) :=
          .socket hr (.discard l cp) ⟨⟨c₀, ev, os, hd, hdata, ne⟩, c₀, hr₀, f.peer ▸ cp⟩
        rwa [put_self hr] at h
    have hr₁ : (if data = [] then s else s.emit [.read r data]).sock r = some c := by
      split <;> exact hr
    simp only [Bool.true_and]
    split
    case isTrue he => exact a₁.trans <| close _ (w.acts a₁) hr₁ he
    case isFalse => exact a₁
  case some p =>
    by_cases ne : data = []
    case pos =>
      simp only [ne, if_true, Bool.true_and]
      split
      case isTrue he => exact close s w hr he
      case isFalse => exact .refl
    case neg =>
      have h := f.relay_acts hd w hr l cp hdata ne
      simp only [ne, if_false]
      split
      case isTrue he =>
        obtain ⟨c₂, hr₂, l₂, hc₂⟩ := h.right (by simp_all)
        have cr₂ : c₂.ops ≠ .remoteSocket := by grind [SocketOps.isLocal]
        exact h.left.trans <|
          close_routine (fun _ _ => Allowed.of_routine) (w.acts h.left) hr₂ cr₂ hc₂
      case isFalse => exact h.left

end AfterFlush

theorem localSocketEventFunc_cases (os : Os) (w : s.WF) (h : s.ready = (r, ev) :: rest)
    (hr : s.sock r = some c) :
    (¬s.Dispatches (.dispatch os) r c ev os ∧ Acts (fun _ b => b.Routine) s
      (({ s with ready := rest } : Looper).localSocketEventFunc r ev os)) ∨
    ∃ s₁ c₁, s.Dispatches (.dispatch os) r c ev os ∧ Acts (fun _ b => b.Routine) s s₁ ∧
      s₁.sock r = some c₁ ∧ c₁.ops.isLocal ∧ AfterFlush s s₁ r c c₁ ev os ∧
      ({ s with ready := rest } : Looper).localSocketEventFunc r ev os =
        s₁.localSocketFlushOutgoing r os := by
  have a₁ : Acts (fun _ b => b.Routine) s { s with ready := rest } :=
    .silent rfl rfl rfl rfl rfl rfl rfl rfl (by simp [h]) trivial
  have w₁ := w.acts a₁
  have sock₁ (n) : ({ s with ready := rest } : Looper).sock n = s.sock n := rfl
  have tr₁ : ({ s with ready := rest } : Looper).transports = s.transports := rfl
  have id₁ : ({ s with ready := rest } : Looper).localSocketNextId = s.localSocketNextId := rfl
  have next₁ : ({ s with ready := rest } : Looper).sockets.next = s.sockets.next := rfl
  have log₁ (n) : ({ s with ready := rest } : Looper).history n = s.history n := rfl
  generalize ({ s with ready := rest } : Looper) = s₁ at a₁ w₁ sock₁ tr₁ id₁ next₁ log₁ ⊢
  have hr₁ : s₁.sock r = some c := by rw [sock₁, hr]
  have l : c.ops.isLocal := (w.ready (r, ev) (by simp [h])).right c hr
  simp only [localSocketEventFunc]
  by_cases hread : ev.read
  case neg =>
    refine .inl ⟨fun ⟨_, _, _, h, _⟩ => hread h, ?_⟩
    simp only [hread, Bool.false_and, Bool.false_eq_true, if_false]
    split
    case isTrue =>
      exact a₁.trans <| (localSocketFlushIncoming_acts w₁ hr₁ l).mono fun _ _ h => h.routine
    case isFalse => exact a₁
  case pos =>
    cases hw : ev.write
    case false =>
      refine .inr ⟨s₁, c, ⟨rest, rfl, h, hread, hr, by simp [hw]⟩, a₁, hr₁, l, ?_, by simp [hread]⟩
      exact ⟨tr₁, id₁, next₁, fun n _ => sock₁ n, rfl, rfl, rfl, by simp [ASocket.flushed, hw],
        _, _, _, log₁ r⟩
    case true =>
      have a₂ : Acts (fun _ b => b.Routine) s (s₁.localSocketFlushIncoming r os.writev).1 :=
        a₁.trans <| (localSocketFlushIncoming_acts w₁ hr₁ l).mono fun _ _ h => h.routine
      by_cases hne : (s₁.localSocketFlushIncoming r os.writev).2 = .destroyed
      case pos =>
        have ⟨hc, hf⟩ := (flushIncoming_destroyed_iff os.writev hr₁).mp hne
        refine .inl ⟨fun ⟨_, _, _, _, _, h⟩ => ?_, by simpa [hne] using a₂⟩
        simp [ASocket.flushed, hw, hc, hf] at h
      case neg =>
        have env : s₁.SameEnv (s₁.localSocketFlushIncoming r os.writev).1 :=
          .localSocketFlushIncoming
        have sock₂ (n) := sock_flushIncoming (n := n) hr₁ hne
        have ⟨q, e, hwr⟩ := writev_eq c (os.writev r c.packetQueue)
        have full : c.closing → (c.flushed r ev os).fdFull := by
          intro hc
          rw [flushIncoming_destroyed_iff os.writev hr₁] at hne
          simpa [ASocket.flushed, hw, hc] using hne
        refine .inr ⟨_, _, ⟨rest, rfl, h, hread, hr, fun _ => full⟩, a₂, (sock₂ r).trans (if_pos rfl),
          by simpa [hwr] using l, ?_, by simp [hread, hne]⟩
        constructor
        case transports => rw [env.transports, tr₁]
        case nextId => rw [env.nextId, id₁]
        case next => rw [env.next, next₁]
        case sock =>
          intro n hn
          rw [sock₂, if_neg hn, sock₁]
        case full => simp [ASocket.flushed, hw, ASocket.fdFull]
        case history => exact log₁ r ▸ history_flushIncoming hr₁ hne
        all_goals simp [hwr]

theorem Dispatches.next (w : s.WF) (hd : s.Dispatches a r c ev os) (h : s.next a = some s') :
    ∃ s₁ c₁, Acts (fun _ b => b.Routine) s s₁ ∧ s₁.sock r = some c₁ ∧ c₁.ops.isLocal ∧
      AfterFlush s s₁ r c c₁ ev os ∧ s' = s₁.localSocketFlushOutgoing r os := by
  have ⟨rest, ha, hready, _, hr, _⟩ := hd
  subst ha
  have hs : s' = ({ s with ready := rest } : Looper).localSocketEventFunc r ev os := by
    simp only [Looper.next, step, handleEvent, hready] at h
    grind
  rcases localSocketEventFunc_cases os w hready hr with h' | ⟨s₁, c₁, _, a₁, hr₁, l, f, hs'⟩
  · exact absurd hd h'.left
  · exact ⟨s₁, c₁, a₁, hr₁, l, f, hs.trans hs'⟩

theorem Dispatches.next_detached (w : s.WF) (hd : s.Dispatches a r c ev os) (cp : c.peer = none)
    (h : s.next a = some s') : ∃ s₁ c₁, Acts (fun _ b => b.Routine) s s₁ ∧ s₁.sock r = some c₁ ∧
      AfterFlush s s₁ r c c₁ ev os ∧ ∃ destroyed,
        s'.history r = { s₁.history r with
          read      := (s₁.history r).read ++ s.readData c os
          destroyed := destroyed } ∧
        (s.readEof c os → c.closing → destroyed) := by
  have ⟨s₁, c₁, a₁, hr₁, l, f, hs⟩ := hd.next w h
  refine ⟨s₁, c₁, a₁, hr₁, f, ?_⟩
  have cp₁ := f.peer.trans cp
  have hread := f.readLoop (w.acts a₁) hr₁
  generalize s.readData c os = data at hread ⊢
  simp only [localSocketFlushOutgoing, hr₁, hread, cp₁] at hs
  generalize hs₂ : (if data = [] then s₁ else s₁.emit [.read r data]) = s₂ at hs
  have hr₂ : s₂.sock r = some c₁ := by
    rw [← hs₂]
    split <;> exact hr₁
  have hh₂ : s₂.history r = { s₁.history r with read := (s₁.history r).read ++ data } := by
    rw [← hs₂]
    split
    case isTrue hn => simp [hn]
    case isFalse => simp [History.step, History.subject, History.record]
  rw [← f.closing]
  cases he : s.readEof c os
  case false =>
    rw [he] at hs
    exact ⟨_, by simpa [hs] using hh₂, by simp⟩
  case true =>
    rw [he] at hs
    simp only [Bool.and_self, if_true] at hs
    rw [hs, history_close_detached hr₂ l cp₁]
    split
    case isTrue => exact ⟨true, by simp [History.record, hh₂], by simp⟩
    case isFalse hn => exact ⟨_, hh₂, by simp_all⟩

theorem localSocketEventFunc_acts (w : s.WF) (h : s.ready = (r, ev) :: rest) :
    Acts (s.Allowed (.dispatch os)) s
      (({ s with ready := rest } : Looper).localSocketEventFunc r ev os) := by
  cases hr : s.sock r
  case none =>
    have a₁ : Acts (s.Allowed (.dispatch os)) s { s with ready := rest } :=
      .silent rfl rfl rfl rfl rfl rfl rfl rfl (by simp [h]) trivial
    have hr₁ : ({ s with ready := rest } : Looper).sock r = none := hr
    generalize ({ s with ready := rest } : Looper) = s₁ at a₁ hr₁ ⊢
    have hf : s₁.localSocketFlushIncoming r os.writev = (s₁, .destroyed) := by
      simp [localSocketFlushIncoming, hr₁]
    simp only [localSocketEventFunc, hf]
    cases ev.write <;> simp [localSocketFlushOutgoing, hr₁, a₁]
  case some c =>
    rcases localSocketEventFunc_cases os w h hr with h | ⟨s₁, c₁, hd, a₁, hr₁, l, f, hs⟩
    · exact h.right.mono fun _ _ => Allowed.of_routine
    · rw [hs]
      refine (a₁.mono fun _ _ => Allowed.of_routine).trans ?_
      exact f.flushOutgoing_acts hd (w.acts a₁) hr₁ l

theorem openService_acts (w : s.WF) :
    Acts (s.Allowed (.openService t service)) s (s.openService t service) := by
  have a₁ : Acts (s.Allowed (.openService t service)) s (s.createLocalSocket none).1 :=
    createLocalSocket_acts (fun _ => trivial) (fun h => ⟨.inl h, by simp⟩)
  have hr₁ : (s.createLocalSocket none).1.sock s.sockets.next =
      some (s.newLocalSocket none) := sock_newLocalSocket
  have tr₁ : (s.createLocalSocket none).1.transports = s.transports := by simp
  have heq : s.openService t service = ((s.createLocalSocket none).1.put s.sockets.next
      (s.newLocalSocket (some t))).connectToRemote s.sockets.next service :=
    congrArg (·.connectToRemote s.sockets.next service) createLocalSocket_eq
  rw [heq]
  have hu : (s.createLocalSocket none).1.Unused s.sockets.next (s.newLocalSocket none) := by
    constructor <;> simp [w.fresh _ (Nat.le_refl _), newLocalSocket]
  refine a₁.trans <| connectToRemote_acts (t := t) .localSocket service hr₁ rfl rfl rfl rfl
    rfl hu (fun _ => .keep) (fun _ => .inr ⟨Nat.le_refl _, service, rfl⟩)
    (fun _ ha => ⟨.inr ⟨Nat.le_refl _, service, rfl⟩, ha⟩) ?_ ?_
  · rw [tr₁]
    exact fun h => ⟨.inr (by simp [OpenAborts, h]), by simp⟩
  · rw [tr₁]
    exact fun tr h hl _ => ⟨.inr (by simpa [OpenAborts, h] using hl), by simp⟩

theorem acceptClient_acts (w : s.WF) : Acts (s.Allowed .accept) s s.acceptClient := by
  have hh (n) (hn : s.sockets.next ≤ n) : s.history n = {} := w.fresh n hn
  have a₁ : Acts (s.Allowed .accept) s (s.createLocalSocket none).1 :=
    createLocalSocket_acts (fun _ => trivial) (fun h => ⟨h, by simp⟩)
  have hr₁ := sock_newLocalSocket (s := s) (t := none)
  have next₁ : (s.createLocalSocket none).1.sockets.next = s.sockets.next + 1 := by simp
  have hist₁ (n) : (s.createLocalSocket none).1.history n = s.history n := by simp
  have r₁ : (s.createLocalSocket none).2 = s.sockets.next := rfl
  simp only [acceptClient, connectToSmartsocket, r₁]
  generalize (s.createLocalSocket none).1 = s₁ at a₁ hr₁ next₁ hist₁ ⊢
  have a₂ : Acts (s.Allowed .accept) s (s₁.create { ops := .smartSocket }) :=
    a₁.tail (a := Act.create s₁.sockets.next) trivial <|
      .create (by constructor <;> simp [SocketOps.isLocal]) (by simp [SocketOps.isLocal])
  have hr₂ : (s₁.create { ops := .smartSocket }).sock s.sockets.next =
      some (s.newLocalSocket none) := by simp [sock_create, next₁, hr₁]
  have hp₂ : (s₁.create { ops := .smartSocket }).sock s₁.sockets.next =
      some { ops := .smartSocket } := by simp [sock_create]
  have ne : s.sockets.next ≠ s₁.sockets.next := by simp [next₁]
  have a₃ := a₂.tail (a := Act.link s.sockets.next s₁.sockets.next)
    ⟨by simp [next₁], .inl (Nat.le_refl _)⟩ <|
    .link hr₂ hp₂ ne rfl rfl rfl rfl rfl
      (by simp [hist₁, hh _ (Nat.le_refl _), newLocalSocket])
      (by simp [hist₁, next₁, hh _ (Nat.le_succ _)]) (by simp) fun _ => by
        constructor <;> simp [hist₁, hh _ (Nat.le_refl _), newLocalSocket]
  have sock₃ (n) := sock_link (n := n) hr₂ hp₂ ne
  have hr₃ := (sock₃ s.sockets.next).trans (if_pos rfl)
  refine a₃.trans <| localSocketReady_acts hr₃ <| .of_not_remote fun c p d hc hp hd => ?_
  cases hr₃.symm.trans hc
  cases hp
  rw [sock₃, if_neg ne.symm, if_pos rfl] at hd
  cases hd
  simp

-- Every step of the looper is a sequence of acts, each of them with a cause in the step's action and
-- the state it is taken in.
theorem next_acts (w : s.WF) (h : s.next a = some s') : Acts (s.Allowed a) s s' := by
  have hstep : s.step a = some s' := by
    unfold next at h
    split at h
    case isTrue => cases h
    case isFalse => exact h
  cases a <;> simp only [step, Option.ite_none_right_eq_some, Option.some.injEq] at hstep
  case packet t p os => exact hstep.right ▸ handlePacket_acts w p
  case poll events =>
    have ⟨⟨_, _, he⟩, hs⟩ := hstep
    refine hs ▸ .one (.poll fun e hm => ?_) trivial
    have ⟨e', he', hm⟩ := List.mem_map.mp hm
    have hc : s.canReport e'.1 e'.2 := List.all_eq_true.mp he e' he'
    have ⟨c, hr, h⟩ := (Option.any_eq_true _ _).mp hc
    simp only [Bool.and_eq_true] at h
    exact ⟨c, hm ▸ hr, h.left.left⟩
  case dispatch os =>
    unfold handleEvent at hstep
    split at hstep
    case h_1 => cases hstep
    case h_2 r ev rest hr =>
      cases hstep
      exact localSocketEventFunc_acts w hr
  case openService t service => exact hstep ▸ openService_acts w
  case accept => exact hstep ▸ acceptClient_acts w
  case handleError t kicked =>
    exact hstep.right ▸ handleError_acts (fun _ _ => Allowed.of_routine)
      (fun _ _ => .move (.inr ⟨kicked, rfl⟩)) w
  case tlsHandshake t =>
    refine hstep.right ▸ tlsHandshake_acts (fun _ _ => .keep) fun h₁ h₂ _ => ?_
    exact ⟨⟨h₁, h₂⟩, by simp⟩
  case updateTracker r os =>
    have ⟨hd, hs⟩ := hstep
    have ⟨c, hr, ho⟩ := (Option.any_eq_true _ _).mp hd
    exact hs ▸ deviceTrackerSend_acts (fun _ _ => Allowed.of_routine)
      (fun _ _ _ h => by simp [Allowed, h]) w hr (by simpa using ho)
  case setDelayedAckBytes w' => exact hstep ▸ .one .setWindow ⟨w', rfl, rfl⟩
  case setKeys keys => exact hstep ▸ .silent rfl rfl rfl rfl rfl rfl rfl rfl (List.Subset.refl _) trivial

theorem WF.next (w : s.WF) (h : s.next a = some s') : s'.WF :=
  w.acts (next_acts w h)

theorem WF.runs (w : s.WF) (h : Runs P s s') : s'.WF :=
  h.invariant (fun _ _ _ _ hs w => w.next hs) w

-- What the acts of a step preserve, the step preserves, and what the steps of a run preserve, the run
-- preserves. The socket table is well-formed at every point.
theorem preserved_by_next {J : Looper → Prop} (w : s.WF) (h : s.next a = some s')
    (act : ∀ s₁ b s₂, s₁.WF → s.Allowed a s₁ b → Act.Step s₁ b s₂ → J s₁ → J s₂) (j : J s) : J s' :=
  Reach.invariant_under (I := WF) (fun _ _ _ _ hs w => w.act hs)
    (fun s₁ b s₂ w₁ hb hs => act s₁ b s₂ w₁ hb hs) (next_acts w h) w j

theorem preserved_by_runs {J : Looper → Prop} (w : s.WF) (h : Runs P s s')
    (step : ∀ s₁ a s₂, s₁.WF → P s₁ a → s₁.next a = some s₂ → J s₁ → J s₂) (j : J s) : J s' :=
  Reach.invariant_under (I := WF) (fun _ _ _ _ hs w => w.next hs)
    (fun s₁ a s₂ w₁ ha hs => step s₁ a s₂ w₁ ha hs) h w j

-- The connection of a transport is left alone by everything but its own packets and errors.
theorem next_preserves_link (w : s.WF) (h : s.next a = some s') (ha : ¬Reconnects a t) :
    linkOf (s'.transports t) = linkOf (s.transports t) := by
  refine preserved_by_next (J := fun s₁ => linkOf (s₁.transports t) = linkOf (s.transports t)) w h ?_ rfl
  intro s₁ b s₂ _ hb hs k
  by_cases ht : ∃ t' tr, b = .transport t' tr
  case neg => rwa [hs.frame.transports fun t' tr h => ht ⟨t', tr, h⟩]
  case pos =>
    obtain ⟨t', tr, rfl⟩ := ht
    cases hs
    by_cases he : t = t'
    case neg => simpa [setTransport, he] using k
    case pos =>
      subst he
      simp only [setTransport, if_true]
      cases hb
      case keep h => exact h.trans k
      case move ha' _ => exact absurd ha' ha
      case connect p os ha' hk _ _ => exact absurd (.inl ⟨p, os, ha', .inl hk⟩) ha

theorem Reachable.wf (h : Reachable P s) : s.WF :=
  WF.initial.runs h

end Looper

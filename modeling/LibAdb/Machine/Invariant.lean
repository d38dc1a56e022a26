import LibAdb.Machine.Basic

namespace Looper

variable {s : Looper} {r p n : Ref} {c c' d : ASocket}

theorem sock_create : (s.create c).sock n = if n = s.sockets.next then some c else s.sock n :=
  rfl

theorem sock_setPeer : (s.setPeer r q).sock n =
    if n = r then (s.sock r).map ({ · with peer := q }) else s.sock n :=
  rfl

theorem sock_link (hr : s.sock r = some c) (hp : s.sock p = some d) (ne : r ≠ p) :
    (s.link r p).sock n = if n = r then some { c with peer := some p }
      else if n = p then some { d with peer := some r } else s.sock n := by
  simp only [link, sock_setPeer, hr, hp, Option.map_some]
  grind

theorem sock_unlink (hr : s.sock r = some c) (hp : s.sock p = some d) (ne : r ≠ p) :
    (s.unlink r p).sock n = if n = r then some { c with peer := none }
      else if n = p then some { d with peer := none } else s.sock n := by
  simp only [unlink, sock_setPeer, hr, hp, Option.map_some]
  grind

theorem sock_destroy : (s.localSocketDestroy r).sock n = if n = r then none else s.sock n :=
  rfl

theorem sock_linger (hr : s.sock r = some c) : (s.linger r c).sock n =
    if n = r then some { c with closing := true, fdeRead := false } else s.sock n :=
  sock_put hr

theorem sock_linger_of_ne (h : n ≠ r) : (s.linger r c).sock n = s.sock n := by
  simp [linger, removeSocket, sock, put, Store.get_modify_of_ne h]

theorem sock_attached (hr : s.sock r = some c) (hp : s.sock p = some d) (ne : r ≠ p) :
    (s.attached r p c m).sock n =
      if n = r then some { c with
        peer := some p
        availableSendBytes := c.credited m s.delayedAckBytes }
      else if n = p then some { d with peer := some r } else s.sock n := by
  have h := sock_link hr hp ne (n := r)
  simp only [if_true] at h
  simp only [attached, sock_emit, sock_put h, sock_link hr hp ne]
  grind

@[simp]
theorem history_create : (s.create c).history n = s.history n :=
  rfl

@[simp]
theorem history_put : (s.put r c).history n = s.history n :=
  rfl

@[simp]
theorem history_link : (s.link r p).history n = s.history n :=
  rfl

@[simp]
theorem history_unlink : (s.unlink r p).history n = s.history n :=
  rfl

theorem history_destroy :
    (s.localSocketDestroy r).history n = History.step n (s.history n) (.destroyed r) := by
  simp [localSocketDestroy]
  rfl

theorem history_attached :
    (s.attached r p c m).history n = History.step n (s.history n) (.acked r m) := by
  simp [attached]

theorem sock_next : s.sock s.sockets.next = none :=
  Store.get_next

end Looper

structure ASocket.Sound (c : ASocket) : Prop where
  closing : c.closing → c.peer = none ∧ c.ops.isLocal
  armed   : c.ops.isLocal → c.fdFull → c.fdeWrite
  remote  : c.ops = .remoteSocket → c.transport.isSome
  smart   : c.ops = .smartSocket → c.id = 0

-- What holds of a socket `r` with a peer. A stream to a device, and a socket with a credit, can only
-- have a remote peer. A smart socket does not put anything into the queue of its client.
structure Looper.Linked (s : Looper) (r p : Ref) (c d : ASocket) : Prop where
  ne      : r ≠ p
  symm    : d.peer = some r
  side    : c.ops.isLocal ∨ d.ops.isLocal
  device  : (s.history r).opened ∨ c.availableSendBytes.isSome → d.ops = .remoteSocket
  request : d.ops = .smartSocket → s.Unused r c

namespace Looper

theorem Unused.congr {s s' : Looper} {c c' : ASocket} (u : s.Unused r c)
    (hh : s'.history r = s.history r) (hq : c'.packetQueue = c.packetQueue) : s'.Unused r c' where
  queue    := hq.trans u.queue
  received := hh ▸ u.received
  okays    := hh ▸ u.okays
  accepted := hh ▸ u.accepted

theorem Linked.congr {s s' : Looper} (k : s.Linked r p c d) (hh : s'.history r = s.history r) :
    s'.Linked r p c d :=
  { k with
    device  := hh ▸ k.device
    request := fun h => (k.request h).congr hh rfl }

end Looper

-- What holds of the socket table between any two acts.
structure Looper.WF (s : Looper) : Prop where
  peer  : ∀ r c p, s.sock r = some c → c.peer = some p → ∃ d, s.sock p = some d ∧ s.Linked r p c d
  list  : ∀ r, r ∈ s.localSocketList ↔ ∃ c, s.sock r = some c ∧ c.ops.isLocal ∧ c.closing = false
  sound : ∀ r c, s.sock r = some c → c.Sound
  fresh : ∀ r, s.sockets.next ≤ r → s.history r = {}
  -- Events are reported for the fds of local sockets.
  ready : ∀ e ∈ s.ready, e.1 < s.sockets.next ∧ ∀ c, s.sock e.1 = some c → c.ops.isLocal

@[simp]
theorem ASocket.credited_isSome (c : ASocket) :
    (c.credited n w).isSome = c.availableSendBytes.isSome := by
  unfold credited
  split
  case h_1 h => simp [h]
  case h_2 => rfl

theorem ASocket.boundTo_pos {c : ASocket} {tr : ATransport} {n : UInt32}
    (hn : tr.delayedAck → n ≠ 0) (h : (c.boundTo t tr o n.toNat).availableSendBytes = some x) :
    0 < x := by
  unfold boundTo at h
  split at h
  case isTrue hd =>
    cases h
    exact Int.natCast_pos.mpr <| Nat.pos_of_ne_zero fun h => hn hd (UInt32.toNat_inj.mp h)
  case isFalse => cases h

theorem ASocket.receive_spec (c : ASocket) (r : Ref) (data : Option Bytes) (w : WriteResult) :
    ∃ q ws f,
      ((c.queued data).writev w).1 =
        { c with packetQueue := q, hasWriteError := c.hasWriteError || f } ∧
      c.packetQueue ++ data.getD [] = ws ++ q ∧ ((c.queued data).writev w).2 = ws.length ∧
      (ws ≠ [] → .wrote r ws ∈ c.receiveEffects r data w) ∧
      ∀ h : History, h.steps r (c.receiveEffects r data w) = { h with
        received    := h.received ++ data.getD []
        arrivals    := h.arrivals + data.toList.length
        written     := h.written ++ ws
        writeFailed := h.writeFailed || f } := by
  have enqueued (h : History) : h.steps r (data.toList.map (.enqueued r)) =
      { h with
        received := h.received ++ data.getD []
        arrivals := h.arrivals + data.toList.length } := by
    cases data <;> simp [History.step, History.subject, History.record]
  simp only [receiveEffects, History.steps_append, enqueued]
  unfold writev writevEffects queued
  dsimp only
  split
  case isTrue hq => exact ⟨[], [], false, by simp [hq], by simp [hq], rfl, by simp, by simp⟩
  case isFalse hq =>
    split
    case h_1 | h_2 =>
      exact ⟨_, [], true, by simp; rfl, by simp, rfl, by simp,
        by simp [History.step, History.subject, History.record]⟩
    case h_3 n _ =>
      refine ⟨_, (c.packetQueue ++ data.getD []).take n, false, by simp; rfl, ?_, ?_, by simp, ?_⟩
      · exact (List.take_append_drop n _).symm
      · exact List.length_take.symm
      · simp [History.step, History.subject, History.record]
    case h_4 => exact ⟨_, [], false, by simp; rfl, by simp, rfl, by simp, by simp⟩

theorem Looper.mem_ackEffects {s : Looper} (h : e ∈ s.ackEffects r c k) :
    ∃ t m, e = .sent (some r) t m ∧ m.kind = some .okay := by
  have ready (i j t n) : ∃ t' m, s.readyEffect r i j t n = .sent (some r) t' m ∧
      m.kind = some .okay := ⟨_, _, rfl, Command.ofWord_word .okay⟩
  unfold ackEffects at h
  split at h
  case h_1 =>
    split at h
    case h_1 => exact List.mem_singleton.mp h ▸ ready _ _ _ _
    case h_2 =>
      split at h
      case isTrue => exact List.mem_singleton.mp h ▸ ready _ _ _ _
      case isFalse => cases h
  case h_2 => cases h

@[simp]
theorem History.step_readyEffect {s : Looper} : step r st (s.readyEffect r i j t k) =
    { st with okays := st.okays ++ [s.readyPayload t k] } :=
  step_of_okay (Command.ofWord_word .okay)

@[simp]
theorem History.steps_ackEffects {s : Looper} : steps r st (s.ackEffects r c k) =
    { st with okays := st.okays ++ s.ackPayloads c k } := by
  unfold Looper.ackEffects Looper.ackPayloads
  split
  case h_1 =>
    split
    case h_1 => simp
    case h_2 => split <;> simp
  case h_2 => simp

namespace SocketAct.Step

variable {s : Looper} {r : Ref} {c c' : ASocket} {a : SocketAct} {es : List Effect}

theorem preserves (h : Step s r c a es c') :
    c'.peer = c.peer ∧ c'.closing = c.closing ∧ c'.id = c.id := by
  cases h
  case receive data w b l hb hd =>
    have ⟨q, ws, f, hw, _⟩ := c.receive_spec r data w
    simp [hw]
  all_goals exact ⟨rfl, rfl, rfl⟩

theorem preserves_peer (h : Step s r c a es c') : c'.peer = c.peer :=
  h.preserves.left

theorem preserves_closing (h : Step s r c a es c') : c'.closing = c.closing :=
  h.preserves.right.left

theorem preserves_id (h : Step s r c a es c') : c'.id = c.id :=
  h.preserves.right.right

theorem preserves_kind (h : Step s r c a es c') : c'.ops.isLocal = c.ops.isLocal ∧
    ∀ ops : SocketOps, ops.isLocal = false → (c'.ops = ops ↔ c.ops = ops) := by
  cases h
  case receive data w b l hb hd =>
    have ⟨q, ws, f, hw, _⟩ := c.receive_spec r data w
    simp [hw]
  case ready l _ | restore l =>
    refine ⟨l.symm, fun ops ho => iff_of_false ?_ ?_⟩
    · rintro rfl
      cases ho
    · rintro rfl
      cases l.symm.trans ho
  case bind l hp lo | opened l o hp lo k hu =>
    refine ⟨lo.trans l.symm, fun ops ho => iff_of_false ?_ ?_⟩
    · rintro rfl
      cases lo.symm.trans ho
    · rintro rfl
      cases l.symm.trans ho
  all_goals exact ⟨rfl, fun _ _ => .rfl⟩

theorem sound (h : Step s r c a es c') (hs : c.Sound) : c'.Sound := by
  have ⟨kind, other⟩ := h.preserves_kind
  constructor
  case closing =>
    rw [h.preserves_closing, h.preserves_peer, kind]
    exact hs.closing
  case armed =>
    rw [kind]
    cases h
    case receive data w b l hb hd => exact fun _ => hb
    all_goals exact hs.armed
  case remote =>
    intro ho
    have ht := hs.remote ((other _ rfl).mp ho)
    cases h
    case receive data w b l hb hd =>
      have ⟨q, ws, f, hw, _⟩ := c.receive_spec r data w
      simpa [hw] using ht
    case accepted | opened | bind | switch => rfl
    all_goals exact ht
  case smart => exact fun ho => h.preserves_id.trans (hs.smart ((other _ rfl).mp ho))

theorem about (h : Step s r c a es c') : ∀ e ∈ es, History.subject e = some r ∨ History.Neutral e := by
  cases h
  case ready l n => exact fun e he => .inr (n e he)
  case receive data w b l hb hd =>
    intro e he
    simp only [ASocket.receiveEffects, List.mem_append] at he
    rcases he with (he | he) | he
    · obtain ⟨bs, _, hb⟩ := List.mem_map.mp he
      exact .inl (hb ▸ rfl)
    · unfold ASocket.writevEffects at he
      refine .inl ?_
      grind [History.subject]
    · obtain ⟨t, m, he, _⟩ := Looper.mem_ackEffects he
      exact .inl (he ▸ rfl)
  case accepted =>
    intro e he
    simp only [List.mem_cons, List.not_mem_nil, or_false] at he
    rcases he with rfl | rfl <;> exact .inl rfl
  all_goals simp [History.subject]

theorem device (h : Step s r c a es c')
    (ho : ((s.emit es).history r).opened ∨ c'.availableSendBytes.isSome) :
    (s.history r).opened ∨ c.availableSendBytes.isSome ∨ c.peer = none ∨
      ∃ p d, c.peer = some p ∧ s.sock p = some d ∧ d.ops = .remoteSocket := by
  cases h
  case receive data w b l hb hd =>
    have ⟨q, ws, f, hw, _, _, _, hh⟩ := c.receive_spec r data w
    simp [hw, History.steps_append, hh] at ho
    grind
  case accepted p d t n l hp hd hr ho hn hu => exact .inr <| .inr <| .inr ⟨p, d, hp, hd, hr⟩
  case forward p d t m data l hp hd hr ht k hm _ _ => exact .inr <| .inr <| .inr ⟨p, d, hp, hd, hr⟩
  case opened t p ops l o hp lo k hu => exact .inr <| .inr <| .inl hp
  case ready n =>
    simp [History.steps_of_neutral n] at ho
    grind
  all_goals
    simp [History.step, History.subject, History.record] at ho
    grind

theorem unused (h : Step s r c a es c') (hp : c.peer = some p) (hd : s.sock p = some d)
    (hs : d.ops = .smartSocket) (hc : c.availableSendBytes = none) (u : s.Unused r c) :
    ((s.put r c').emit es).Unused r c' := by
  have ⟨queue, received, okays, fresh⟩ := u
  have keep (hq : c'.packetQueue = c.packetQueue)
      (hh : (((s.history r).steps r es).received = (s.history r).received ∧
        ((s.history r).steps r es).okays = (s.history r).okays ∧
        ((s.history r).steps r es).accepted = (s.history r).accepted)) :
      ((s.put r c').emit es).Unused r c' := by
    refine ⟨hq.trans queue, ?_, ?_, ?_⟩ <;> rw [Looper.history_emit, Looper.history_put]
    · exact hh.left.trans received
    · exact hh.right.left.trans okays
    · exact hh.right.right.trans fresh
  cases h
  case receive data w b l hb hd' =>
    cases data
    case some =>
      have ⟨p', d', hp', hd'', hs'⟩ := hd' rfl
      cases hp.symm.trans hp'
      cases hd.symm.trans hd''
      exact absurd hs hs'
    case none =>
      have hq : c.queued none = c := by simp [ASocket.queued]
      have hw : (c.queued none).writev w = (c, 0) := by simp [hq, ASocket.writev, queue]
      have he : c.receiveEffects r none w = [] := by
        simp [ASocket.receiveEffects, ASocket.writevEffects, hq, queue]
      have ha : s.ackPayloads c 0 = [] := by
        unfold Looper.ackPayloads
        simp only [hc]
        split <;> simp
      refine keep (by simp [hw]) ?_
      simp [hw, he, ha]
  case ready n => exact keep rfl (by simp [History.steps_of_neutral n])
  case accepted p' d' t n l hp' hd' hr ho hn hu =>
    cases hp.symm.trans hp'
    cases hd.symm.trans hd'
    cases hs.symm.trans hr
  case forward p' d' t m data l hp' hd' hr ht k hm _ _ =>
    cases hp.symm.trans hp'
    cases hd.symm.trans hd'
    cases hs.symm.trans hr
  case opened hp' _ _ _ => cases hp.symm.trans hp'
  case bind hp' _ => cases hp.symm.trans hp'
  case discard hp' => cases hp.symm.trans hp'
  all_goals exact keep rfl (by simp [History.step, History.subject, History.record])

end SocketAct.Step

theorem History.steps_of_about (h : ∀ e ∈ es, subject e = some r ∨ Neutral e) (hn : n ≠ r) :
    steps n st es = st := by
  induction es
  case nil => rfl
  case cons e es ih =>
    have he : step n st e = st := by
      rcases h e List.mem_cons_self with he | he
      · exact step_of_ne (by simp [he, hn.symm])
      · exact step_of_neutral he
    rw [steps_cons, he]
    exact ih fun e' hm => h e' (List.mem_cons_of_mem _ hm)

namespace Looper.WF

variable {s : Looper} {r p n : Ref} {c c' d : ASocket}

theorem create (w : s.WF) (h : c.Fresh) : (s.create c).WF where
  peer := by
    intro r c' q hr hq
    have hn : s.sock s.sockets.next = none := sock_next
    have hc := h.peer
    have hr' : s.sock r = some c' := by grind [sock_create]
    have ⟨d, hd, k⟩ := w.peer r c' q hr' hq
    exact ⟨d, by grind [sock_create], k.congr rfl⟩
  list := by
    intro r
    have hn : s.sock s.sockets.next = none := sock_next
    have hc := h.closing
    have := w.list r
    grind [sock_create, Looper.create]
  sound := by
    intro r c' hr
    have := w.sound r c'
    have hc : c.Sound := by
      have := h.closing
      have := h.queue
      constructor <;> grind [ASocket.fdFull, h.remote, h.smart]
    grind [sock_create]
  fresh r hr := w.fresh r (Nat.le_of_succ_le hr)
  ready e he := by
    have ⟨hlt, hl⟩ := w.ready e he
    refine ⟨Nat.lt_succ_of_lt hlt, ?_⟩
    rw [sock_create, if_neg (Nat.ne_of_lt hlt)]
    exact hl

theorem link (w : s.WF) (hr : s.sock r = some c) (hp : s.sock p = some d) (ne : r ≠ p)
    (l : c.ops.isLocal) (co : c.closing = false) (do' : d.closing = false) (cp : c.peer = none)
    (dp : d.peer = none)
    (cc : (s.history r).opened ∨ c.availableSendBytes.isSome → d.ops = .remoteSocket)
    (dc : (s.history p).opened = false ∧ d.availableSendBytes = none)
    (cu : d.ops = .smartSocket → s.Unused r c) : (s.link r p).WF := by
  have sock (n) := sock_link (n := n) hr hp ne
  constructor
  case peer =>
    intro n c' q hn hq
    by_cases hnr : n = r
    case pos =>
      have he : c' = { c with peer := some p } := by grind
      have hqp : q = p := by grind
      subst hnr he
      rw [hqp]
      exact ⟨{ d with peer := some n }, by grind, ne, rfl, .inl l, cc, fun h => (cu h).congr rfl rfl⟩
    case neg =>
      by_cases hnp : n = p
      case pos =>
        have he : c' = { d with peer := some r } := by grind
        have hqr : q = r := by grind
        subst hnp he
        rw [hqr]
        exact ⟨{ c with peer := some n }, by grind, hnr, rfl, .inr l, by simp [history_link, dc],
          fun h => by cases l.symm.trans (congrArg SocketOps.isLocal h)⟩
      case neg =>
        have ⟨e, he, k⟩ := w.peer n c' q (by grind) hq
        have := k.symm
        exact ⟨e, by grind, k.congr rfl⟩
  case list =>
    intro n
    have := w.list n
    have h : (s.link r p).localSocketList = s.localSocketList := rfl
    grind
  case sound =>
    intro n c' hn
    have := w.sound n c'
    have hc := w.sound r c hr
    have hd := w.sound p d hp
    have hc' : { c with peer := some p : ASocket }.Sound :=
      { hc with closing := by simp [co] }
    have hd' : { d with peer := some r : ASocket }.Sound :=
      { hd with closing := by simp [do'] }
    grind
  case fresh => exact w.fresh
  case ready =>
    intro e he
    have := w.ready e he
    exact ⟨this.left, by grind⟩

theorem unlink (w : s.WF) (hr : s.sock r = some c) (hp : s.sock p = some d) (cp : c.peer = some p)
    (dp : d.peer = some r) : (s.unlink r p).WF := by
  have ⟨_, _, k⟩ := w.peer r c p hr cp
  have sock (n) := sock_unlink (n := n) hr hp k.ne
  constructor
  case peer =>
    intro n c' q hn hq
    have ⟨e, he, k⟩ := w.peer n c' q (by grind) hq
    have := k.symm
    exact ⟨e, by grind, k.congr rfl⟩
  case list =>
    intro n
    have := w.list n
    have h : (s.unlink r p).localSocketList = s.localSocketList := rfl
    grind
  case sound =>
    intro n c' hn
    have := w.sound n c'
    have hc := w.sound r c hr
    have hd := w.sound p d hp
    have hc' : { c with peer := none : ASocket }.Sound :=
      { hc with closing := fun h => ⟨rfl, (hc.closing h).right⟩ }
    have hd' : { d with peer := none : ASocket }.Sound :=
      { hd with closing := fun h => ⟨rfl, (hd.closing h).right⟩ }
    grind
  case fresh => exact w.fresh
  case ready =>
    intro e he
    have := w.ready e he
    exact ⟨this.left, by grind⟩

theorem remove {s' : Looper} (w : s.WF) (hr : s.sock r = some c) (cp : c.peer = none)
    (sock : ∀ n, s'.sock n = if n = r then none else s.sock n)
    (list : ∀ n, n ∈ s'.localSocketList ↔ n ∈ s.localSocketList ∧ (n = r → c.ops.isLocal = false))
    (next : s'.sockets.next = s.sockets.next) (ready : s'.ready = s.ready)
    (hist : ∀ n, n ≠ r → s'.history n = s.history n) : s'.WF where
  peer := by
    intro n c' q hn hq
    have ⟨e, he, k⟩ := w.peer n c' q (by grind) hq
    have := k.symm
    exact ⟨e, by grind, k.congr (hist n (by grind))⟩
  list := by
    intro n
    have := w.list n
    grind
  sound := by
    intro n c' hn
    exact w.sound n c' (by grind)
  fresh := by
    intro n hn
    rw [next] at hn
    rw [hist n (Nat.ne_of_gt <| Nat.lt_of_lt_of_le (Store.lt_next hr) hn)]
    exact w.fresh n hn
  ready := by
    rw [ready, next]
    intro e he
    have := w.ready e he
    exact ⟨this.left, by grind⟩

theorem update {s' : Looper} {e : ASocket} (w : s.WF) (hr : s.sock r = some c)
    (sock : ∀ n, s'.sock n = if n = r then some e else s.sock n)
    (list : s'.localSocketList = s.localSocketList) (next : s'.sockets.next = s.sockets.next)
    (ready : s'.ready = s.ready) (hist : ∀ n, n ≠ r → s'.history n = s.history n) (hp : e.peer = c.peer)
    (ho : e.ops.isLocal = c.ops.isLocal) (hR : e.ops = .remoteSocket ↔ c.ops = .remoteSocket)
    (hS : e.ops = .smartSocket ↔ c.ops = .smartSocket) (hc : e.closing = c.closing) (hs : e.Sound)
    (hd : (s'.history r).opened ∨ e.availableSendBytes.isSome →
      (s.history r).opened ∨ c.availableSendBytes.isSome ∨ c.peer = none ∨
        ∃ p d, c.peer = some p ∧ s.sock p = some d ∧ d.ops = .remoteSocket)
    (hu : ∀ p d, c.peer = some p → s.sock p = some d → d.ops = .smartSocket →
      c.availableSendBytes = none → s.Unused r c → s'.Unused r e) : s'.WF where
  peer := by
    intro n g q hn hq
    by_cases hnr : n = r
    case pos =>
      have hcq : c.peer = some q := by grind
      have ⟨f, hf, k⟩ := w.peer r c q hr hcq
      have ⟨ne, symm, side, device, request⟩ := k
      have hg : g = e := by grind
      subst hnr hg
      have device' : (s'.history n).opened ∨ g.availableSendBytes.isSome → f.ops = .remoteSocket := by
        intro h
        rcases hd h with h | h | h | ⟨p, d, hp, hd, hr⟩
        · exact device (.inl h)
        · exact device (.inr h)
        · cases hcq.symm.trans h
        · cases hcq.symm.trans hp
          cases hf.symm.trans hd
          exact hr
      refine ⟨f, by grind, ne, symm, ho ▸ side, device', fun h => ?_⟩
      have credit := mt device (by simp [h])
      exact hu q f hcq hf h (by simp_all) (request h)
    case neg =>
      have ⟨f, hf, k⟩ := w.peer n g q (by grind) hq
      have k' := k.congr (hist n hnr)
      by_cases hqr : q = r
      case pos =>
        subst hqr
        cases hr.symm.trans hf
        exact ⟨e, by grind, k'.ne, hp.trans k'.symm, ho ▸ k'.side, fun h => hR.mpr (k'.device h),
          fun h => k'.request (hS.mp h)⟩
      case neg => exact ⟨f, by grind, k'⟩
  list := by
    intro n
    have := w.list n
    grind
  sound := by
    intro n g hn
    have := w.sound n g
    grind
  fresh := by
    intro n hn
    rw [next] at hn
    rw [hist n (Nat.ne_of_gt <| Nat.lt_of_lt_of_le (Store.lt_next hr) hn)]
    exact w.fresh n hn
  ready := by
    rw [ready, next]
    intro e he
    have := w.ready e he
    exact ⟨this.left, by grind⟩

theorem attached (w : s.WF) (hr : s.sock r = some c) (hp : s.sock p = some d) (ne : r ≠ p)
    (l : c.ops.isLocal) (co : c.closing = false) (do' : d.closing = false) (cp : c.peer = none)
    (dp : d.peer = none) (dr : d.ops = .remoteSocket)
    (dc : (s.history p).opened = false ∧ d.availableSendBytes = none) : (s.attached r p c m).WF := by
  have wl := w.link hr hp ne l co do' cp dp (fun _ => dr) dc (by simp [dr])
  have hr' : (s.link r p).sock r = some { c with peer := some p } := by simp [sock_link hr hp ne]
  have hp' : (s.link r p).sock p = some { d with peer := some r } := by
    simp [sock_link hr hp ne, ne.symm]
  have hs := wl.sound _ _ hr'
  refine wl.update (e := { c with
    peer := some p
    availableSendBytes := c.credited m s.delayedAckBytes }) hr' ?_ rfl rfl rfl ?_ rfl rfl ?_ ?_ rfl
      ?_ ?_ ?_
  · intro n
    exact sock_put hr'
  · intro n hn
    rw [history_attached, history_link]
    exact History.step_of_ne (by simpa [History.subject] using hn.symm)
  · simp
  · simp
  · exact { hs with }
  · intro _
    exact .inr <| .inr <| .inr ⟨p, _, rfl, hp', dr⟩
  · intro q e hq he hs
    cases hq
    cases hp'.symm.trans he
    cases dr.symm.trans hs

theorem socket (w : s.WF) (hr : s.sock r = some c) (h : SocketAct.Step s r c a es c') :
    ((s.put r c').emit es).WF := by
  have hist (n) (hn : n ≠ r) : ((s.put r c').emit es).history n = s.history n := by
    rw [history_emit, history_put]
    exact History.steps_of_about h.about hn
  exact w.update hr (fun n => sock_put hr) rfl rfl rfl hist h.preserves_peer h.preserves_kind.left
    (h.preserves_kind.right _ rfl) (h.preserves_kind.right _ rfl) h.preserves_closing
    (h.sound <| w.sound r c hr) h.device
    fun _ _ hp hd hs hc => h.unused hp hd hs hc

theorem linger (w : s.WF) (hr : s.sock r = some c) (cp : c.peer = none) (l : c.ops.isLocal) :
    (s.linger r c).WF := by
  have sock (n) := sock_linger (n := n) hr
  constructor
  case peer =>
    intro n c' q hn hq
    have ⟨e, he, k⟩ := w.peer n c' q (by grind) hq
    have := k.symm
    exact ⟨e, by grind, k.congr rfl⟩
  case list =>
    intro n
    have := w.list n
    have h : (s.linger r c).localSocketList = s.localSocketList.filter (· != r) := rfl
    grind
  case sound =>
    intro n c' hn
    have := w.sound n c'
    have hc := w.sound r c hr
    have hc' : { c with closing := true, fdeRead := false : ASocket }.Sound :=
      { hc with closing := fun _ => ⟨cp, l⟩ }
    grind
  case fresh => exact w.fresh
  case ready =>
    intro e he
    have := w.ready e he
    exact ⟨this.left, by grind⟩

theorem destroy (w : s.WF) (hr : s.sock r = some c) (cp : c.peer = none) (l : c.ops.isLocal) :
    (s.localSocketDestroy r).WF := by
  refine w.remove hr cp (fun n => rfl) ?_ rfl rfl ?_
  · intro n
    have h : (s.localSocketDestroy r).localSocketList = s.localSocketList.filter (· != r) := rfl
    grind
  · intro n hn
    rw [history_destroy]
    exact History.step_of_ne (by simpa [History.subject] using hn.symm)

theorem release (w : s.WF) (hr : s.sock r = some c) (cp : c.peer = none)
    (l : c.ops.isLocal = false) : (s.release r).WF :=
  w.remove hr cp (fun _ => rfl) (fun _ => ⟨fun h => ⟨h, fun _ => l⟩, And.left⟩) rfl rfl
    (fun _ _ => rfl)

theorem congr {s' : Looper} (w : s.WF) (sockets : s'.sockets = s.sockets)
    (list : s'.localSocketList = s.localSocketList) (hist : s'.history = s.history)
    (ready : ∀ e ∈ s'.ready, e ∈ s.ready ∨ ∃ c, s.sock e.1 = some c ∧ c.ops.isLocal) : s'.WF where
  peer r c p := by
    simp only [Looper.sock, sockets]
    intro hr hp
    obtain ⟨d, hd, k⟩ := w.peer r c p hr hp
    exact ⟨d, hd, k.congr (by rw [hist])⟩
  list r := by
    simp only [Looper.sock, sockets, list]
    exact w.list r
  sound r c := by
    simp only [Looper.sock, sockets]
    exact w.sound r c
  fresh r := by
    rw [sockets, hist]
    exact w.fresh r
  ready e he := by
    simp only [Looper.sock, sockets]
    rcases ready e he with h | ⟨c, hc, l⟩
    · exact w.ready e h
    · refine ⟨Store.lt_next hc, fun c' hc' => ?_⟩
      cases hc.symm.trans hc'
      exact l

theorem ne_peer (w : s.WF) (hr : s.sock r = some c) (cp : c.peer = some p) : r ≠ p := by
  have ⟨_, _, k⟩ := w.peer r c p hr cp
  exact k.ne

theorem open_of_peer (w : s.WF) (hr : s.sock r = some c) (cp : c.peer = some p) :
    c.closing = false := by
  rw [Bool.eq_false_iff]
  intro hc
  have alone := ((w.sound r c hr).closing hc).left
  cases alone.symm.trans cp

theorem no_credit (w : s.WF) (hr : s.sock r = some c) (cp : c.peer = some p) (hp : s.sock p = some d)
    (dr : d.ops ≠ .remoteSocket) : c.availableSendBytes = none := by
  have ⟨d', hd', k⟩ := w.peer r c p hr cp
  cases hp.symm.trans hd'
  have h := mt k.device dr
  simp_all

theorem act (w : s.WF) : Act.Step s a s' → s'.WF
  | .create h _ => w.create h
  | .link hr hp ne l co do' cp dp cc dc _ cu => w.link hr hp ne l co do' cp dp (by simp [cc]) dc cu
  | .attach hr hp ne l co do' cp dp dr _ dc => w.attached hr hp ne l co do' cp dp dr dc
  | .unlink hr hp cp dp _ _ => w.unlink hr hp cp dp
  | .finish hr hp cp dp l _ _ =>
    have hr' := (sock_unlink (n := _) hr hp (w.ne_peer hr cp)).trans (if_pos rfl)
    (w.unlink hr hp cp dp).destroy hr' rfl l
  | .retire hr hp cp dp l _ _ =>
    have hr' := (sock_unlink (n := _) hr hp (w.ne_peer hr cp)).trans (if_pos rfl)
    (w.unlink hr hp cp dp).linger hr' rfl l
  | .release hr cp l => w.release hr cp l
  | .destroy hr cp l _ | .drop hr cp l _ => w.destroy hr cp l
  | .linger hr cp l _ => w.linger hr cp l
  | .socket hr h => w.socket hr h
  | .transport | .setWindow | .abort => w.congr rfl rfl rfl fun _ => .inl
  | .poll h => w.congr rfl rfl rfl fun e he => .inr (h e he)
  | .other sockets l _ _ _ _ _ log n rd => by
    refine w.congr sockets l ?_ fun _ he => .inl (rd he)
    funext r
    simp [history, log, History.steps_append, History.steps_of_neutral n]

theorem acts (w : s.WF) (h : Acts P s s') : s'.WF :=
  h.invariant (fun _ _ _ _ hs w => w.act hs) w

theorem initial : ({} : Looper).WF where
  peer r c p hr := by cases hr
  list r := by simp [Looper.sock]
  sound r c hr := by cases hr
  fresh r _ := rfl
  ready e he := by cases he

end Looper.WF

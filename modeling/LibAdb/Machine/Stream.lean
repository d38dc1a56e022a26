import LibAdb.Machine.Refinement

namespace Looper

-- What an act does to a single socket: the socket, the kind of its peer and its history afterwards.
inductive Moves (s : Looper) (r : Ref) : Act → Option ASocket → Bool → History → Prop
  | idle : s.Moves r b (s.sock r) (s.remotePeer r) (s.history r)
  | create (hr : s.sock r = none) (hh : s.history r = {}) (h : c.Fresh) :
    s.Moves r (.create r) (some c) false {}
  | link (hr : s.sock r = some c) (cp : c.peer = none) (ho : (s.history r).opened = false)
    (ha : c.availableSendBytes = none) {remote : Bool} (hf : remote → c.fdeRead = false) :
    s.Moves r b (some { c with peer := some p }) remote (s.history r)
  | attach (hr : s.sock r = some c) (cp : c.peer = none) (o : c.closing = false) :
    s.Moves r (.attach r p t m) (some { c with
      peer := some p
      availableSendBytes := c.credited m s.delayedAckBytes }) true
      ((s.history r).record (.acked r m))
  | unlink (hr : s.sock r = some c) (ha : c.ops.isLocal → c.availableSendBytes = none) :
    s.Moves r b (some { c with peer := none }) false (s.history r)
  | release (hr : s.sock r = some c) (l : c.ops.isLocal = false) :
    s.Moves r (.release r) none false (s.history r)
  | destroy (hr : s.sock r = some c) (h : c.hasWriteError ∨ c.packetQueue = []) :
    s.Moves r b none false ((s.history r).record (.destroyed r))
  | drop (hr : s.sock r = some c) :
    s.Moves r (.drop r) none false ((s.history r).record (.destroyed r))
  | linger (hr : s.sock r = some c) :
    s.Moves r b (some { c with peer := none, closing := true, fdeRead := false }) false (s.history r)
  | socket (hr : s.sock r = some c) (h : SocketAct.Step s r c a es c') :
    s.Moves r (.socket r a) (some c') (s.remotePeer r) ((s.history r).steps r es)

variable {s s' : Looper} {r n p : Ref} {c d : ASocket}

theorem remotePeer_eq (hr : s.sock r = some c) (cp : c.peer = some p) (hp : s.sock p = some d) :
    s.remotePeer r = (d.ops == .remoteSocket) := by
  simp [remotePeer, hr, peerOf, cp, hp]

theorem remotePeer_iff : s.remotePeer r ↔ ∃ c p d, s.sock r = some c ∧ c.peer = some p ∧
    s.sock p = some d ∧ d.ops = .remoteSocket := by
  simp only [remotePeer, Option.any_eq_true, Option.bind_eq_some_iff, peerOf, beq_iff_eq]
  grind

theorem remotePeer_of_local (hr : s.sock r = some c) (cp : c.peer = some p) (hp : s.sock p = some d)
    (l : d.ops.isLocal) : s.remotePeer r = false := by
  rw [remotePeer_eq hr cp hp]
  grind [SocketOps.isLocal]

theorem remotePeer_of_none (h : (s.sock r).bind (·.peer) = none) : s.remotePeer r = false := by
  cases hr : s.sock r
  case none => simp [remotePeer, hr]
  case some c =>
    have hp : c.peer = none := by simpa [hr] using h
    simp [remotePeer, hr, peerOf, hp]

theorem remotePeer_congr (w : s.WF) (hr : s'.sock r = s.sock r)
    (hp : ∀ p d, s.sock p = some d → d.peer = some r → ∃ d', s'.sock p = some d' ∧
      (d'.ops = .remoteSocket ↔ d.ops = .remoteSocket)) : s'.remotePeer r = s.remotePeer r := by
  cases hc : s.sock r
  case none =>
    rw [hc] at hr
    simp [remotePeer, hr, hc]
  case some c =>
    rw [hc] at hr
    cases cp : c.peer
    case none => rw [remotePeer_of_none (by simp [hr, cp]), remotePeer_of_none (by simp [hc, cp])]
    case some p =>
      obtain ⟨d, hd, k⟩ := w.peer r c p hc cp
      obtain ⟨d', hd', ho⟩ := hp p d hd k.symm
      rw [Bool.eq_iff_iff]
      simpa [remotePeer, hr, hc, peerOf, cp, hd, hd'] using ho

theorem Moves.of_socket (w : s.WF) (hr : s.sock r = some c) (h : SocketAct.Step s r c a es c') :
    s.Moves r (.socket r a) (((s.put r c').emit es).sock r) (((s.put r c').emit es).remotePeer r)
      (((s.put r c').emit es).history r) := by
  have sock (k) : ((s.put r c').emit es).sock k = if k = r then some c' else s.sock k := sock_put hr
  have hs := (sock r).trans (if_pos rfl)
  have hp : ((s.put r c').emit es).remotePeer r = s.remotePeer r := by
    cases cp : c.peer
    case none =>
      rw [remotePeer_of_none (by simp [hs, h.preserves_peer, cp]),
        remotePeer_of_none (by simp [hr, cp])]
    case some p =>
      have ⟨d, hd, k⟩ := w.peer r c p hr cp
      rw [remotePeer_eq hr cp hd, remotePeer_eq hs (h.preserves_peer.trans cp)
        ((sock p).trans ((if_neg k.ne.symm).trans hd))]
  rw [hs, hp, history_emit, history_put]
  exact .socket hr h

end Looper

namespace Act.Step

variable {s s' : Looper} {r n p : Ref} {b : Act} {d : ASocket}

theorem preserves_kind (hp : s.sock p = some d) (dp : d.peer = some r) (h : Act.Step s b s')
    (hr : r ∉ b.touches) : ∃ d', s'.sock p = some d' ∧
      (d'.ops = .remoteSocket ↔ d.ops = .remoteSocket) := by
  by_cases hm : p ∈ b.touches
  case neg => exact ⟨d, (h.preserves_sock hm).trans hp, .rfl⟩
  case pos =>
    cases h
    case socket c n a c' es hn h =>
      have hpn : p = n := by simpa [touches] using hm
      subst hpn
      cases hp.symm.trans hn
      exact ⟨c', by simp [Looper.sock_put hn], h.preserves_kind.right _ rfl⟩
    case create =>
      have hn : s.sock s.sockets.next = none := Looper.sock_next
      grind [touches]
    all_goals grind [touches]

theorem preserves_history : Act.Step s b s' → r ∉ b.touches → s'.history r = s.history r
  | .socket hn h, hr => by
    rw [Looper.history_emit, Looper.history_put]
    exact History.steps_of_about h.about (by simpa [touches] using hr)
  | .destroy .., hr | .drop .., hr | .finish .., hr => by
    rw [Looper.history_destroy]
    exact History.step_of_ne (by grind [touches, History.subject])
  | .attach .., hr => by
    rw [Looper.history_attached]
    exact History.step_of_ne (by grind [touches, History.subject])
  | .other _ _ _ _ _ _ _ log n _, _ => by
    simp [Looper.history, log, History.steps_append, History.steps_of_neutral n]
  | .create .., _ | .link .., _ | .unlink .., _ | .retire .., _ | .release .., _ | .linger .., _ | .transport, _
  | .setWindow, _ | .poll .., _ | .abort, _ => rfl

theorem moves_of_touches (w : s.WF) : Act.Step s b s' → r ∈ b.touches →
    s.Moves r b (s'.sock r) (s'.remotePeer r) (s'.history r)
  | .create (c := c) h _, hr => by
    obtain rfl := List.mem_singleton.mp hr
    have hs : (s.create c).sock s.sockets.next = some c := by simp [Looper.sock_create]
    have hh : s.history s.sockets.next = {} := w.fresh _ (Nat.le_refl _)
    rw [hs, Looper.remotePeer_of_none (by simp [hs, h.peer]), Looper.history_create, hh]
    exact .create Looper.sock_next hh h
  | .link (r := n) (p := m) (c := c) (d := d) hn hm ne l co do' cp dp cc dc cf _, hr => by
    have hr := List.mem_pair.mp hr
    have sock (k) := Looper.sock_link (n := k) hn hm ne
    have hn' := (sock n).trans (if_pos rfl)
    have hm' := (sock m).trans ((if_neg ne.symm).trans (if_pos rfl))
    rcases hr with rfl | rfl
    · rw [hn', Looper.remotePeer_eq hn' rfl hm']
      exact .link hn cp cc.left cc.right fun h => cf (by simpa using h)
    · rw [hm', Looper.remotePeer_of_local hm' rfl hn' l]
      exact .link hm dp dc.left dc.right (by simp)
  | .attach (r := n) (p := m) (c := c) (d := d) (n := g) hn hm ne l co do' cp dp dr dt dc, hr => by
    have hr := List.mem_pair.mp hr
    have sock (k) := Looper.sock_attached (n := k) (m := g) hn hm ne
    have hn' := (sock n).trans (if_pos rfl)
    have hm' := (sock m).trans ((if_neg ne.symm).trans (if_pos rfl))
    rcases hr with rfl | rfl
    · rw [hn', Looper.remotePeer_eq hn' rfl hm', Looper.history_attached,
        History.step_of_eq rfl, dr]
      exact .attach hn cp co
    · rw [hm', Looper.remotePeer_of_local hm' rfl hn' l, Looper.history_attached,
        History.step_of_ne (by simpa [History.subject] using ne)]
      exact .link hm dp dc.left dc.right (by simp)
  | .unlink (r := n) (p := m) (c := c) (d := d) hn hm cp dp cr dr, hr => by
    have hr := List.mem_pair.mp hr
    have ne := w.ne_peer hn cp
    have sock (k') := Looper.sock_unlink (n := k') hn hm ne
    rcases hr with rfl | rfl
    · have hr' := (sock r).trans (if_pos rfl)
      rw [hr', Looper.remotePeer_of_none (by simp [hr'])]
      exact .unlink hn fun _ => w.no_credit hn cp hm dr
    · have hr' := (sock r).trans ((if_neg ne.symm).trans (if_pos rfl))
      rw [hr', Looper.remotePeer_of_none (by simp [hr'])]
      exact .unlink hm fun _ => w.no_credit hm dp hn cr
  | .finish (r := n) (p := m) (c := c) (d := d) hn hm cp dp l dr h, hr => by
    have hr := List.mem_pair.mp hr
    have ne := w.ne_peer hn cp
    have sock (k') := Looper.sock_unlink (n := k') hn hm ne
    rcases hr with rfl | rfl
    · have hs : ((s.unlink r m).localSocketDestroy r).sock r = none := by simp [Looper.sock_destroy]
      rw [hs, Looper.remotePeer_of_none (by simp [hs]), Looper.history_destroy, History.step_of_eq rfl]
      exact .destroy hn h
    · have hs : ((s.unlink n r).localSocketDestroy n).sock r = some { d with peer := none } := by
        simp [Looper.sock_destroy, sock, ne.symm]
      have hh : ((s.unlink n r).localSocketDestroy n).history r = s.history r := by
        rw [Looper.history_destroy, Looper.history_unlink]
        exact History.step_of_ne (by simpa [History.subject] using ne)
      rw [hs, Looper.remotePeer_of_none (by simp [hs]), hh]
      exact .unlink hm (by simp [dr, SocketOps.isLocal])
  | .retire (r := n) (p := m) (c := c) (d := d) hn hm cp dp l dr h, hr => by
    have hr := List.mem_pair.mp hr
    have ne := w.ne_peer hn cp
    have sock (k') := Looper.sock_unlink (n := k') hn hm ne
    have hn' := (sock n).trans (if_pos rfl)
    rcases hr with rfl | rfl
    · have hs := (Looper.sock_linger (n := r) hn').trans (if_pos rfl)
      rw [hs, Looper.remotePeer_of_none (by simp [hs])]
      exact .linger (c := c) hn
    · have hs : ((s.unlink n r).linger n { c with peer := none }).sock r =
          some { d with peer := none } := by
        simp [Looper.sock_linger hn', sock, ne.symm]
      rw [hs, Looper.remotePeer_of_none (by simp [hs])]
      exact .unlink hm (by simp [dr, SocketOps.isLocal])
  | .release (r := n) hn cp l, hr => by
    obtain rfl := List.mem_singleton.mp hr
    have hs : (s.release r).sock r = none := by simp [Looper.sock_release]
    rw [hs, Looper.remotePeer_of_none (by simp [hs])]
    exact .release hn l
  | .destroy (r := n) hn cp l h, hr => by
    obtain rfl := List.mem_singleton.mp hr
    have hs : (s.localSocketDestroy r).sock r = none := by simp [Looper.sock_destroy]
    rw [hs, Looper.remotePeer_of_none (by simp [hs]), Looper.history_destroy, History.step_of_eq rfl]
    exact .destroy hn h
  | .drop (r := n) hn cp l h, hr => by
    obtain rfl := List.mem_singleton.mp hr
    have hs : (s.localSocketDestroy r).sock r = none := by simp [Looper.sock_destroy]
    rw [hs, Looper.remotePeer_of_none (by simp [hs]), Looper.history_destroy, History.step_of_eq rfl]
    exact .drop hn
  | .linger (r := n) (c := c) hn cp l h, hr => by
    obtain rfl := List.mem_singleton.mp hr
    have hs := (Looper.sock_linger (n := r) hn).trans (if_pos rfl)
    have hc : { c with closing := true, fdeRead := false } =
      ({ c with peer := none, closing := true, fdeRead := false } : ASocket) := by rw [← cp]
    rw [hs, Looper.remotePeer_of_none (by simp [hs, cp]), hc]
    exact .linger hn
  | .socket (r := n) hn h, hr => by
    obtain rfl := List.mem_singleton.mp hr
    exact Looper.Moves.of_socket w hn h
  | .transport, hr | .setWindow, hr | .poll .., hr | .abort, hr | .other .., hr => by
    simp [touches] at hr

theorem moves (w : s.WF) (h : Act.Step s b s') :
    s.Moves r b (s'.sock r) (s'.remotePeer r) (s'.history r) := by
  by_cases hr : r ∈ b.touches
  case neg =>
    have hp : s'.remotePeer r = s.remotePeer r :=
      Looper.remotePeer_congr w (h.preserves_sock hr) fun p d hd dp => h.preserves_kind hd dp hr
    rw [h.preserves_sock hr, hp, h.preserves_history hr]
    exact .idle
  case pos => exact h.moves_of_touches w hr

end Act.Step

def History.after (h : History) : SocketAct → History
  | .acked n => { h with acks := h.acks ++ [n], permitted := true }
  | .accepted _ _ => { h with permitted := true, accepted := true }
  | .opened _ => { h with opened := true, read := [], sent := [], acks := [], permitted := false }
  | .forward _ data =>
    { h with
      read := h.read ++ data, sent := h.sent ++ data, writes := h.writes + 1, permitted := false }
  | .relay data | .discard data => { h with read := h.read ++ data }
  | .hangUp => { h with remoteClosed := true }
  | _ => h

-- The `OKAY` packets of an act that receives no data: the answer to the device's `OPEN`.
def Looper.grants (s : Looper) : SocketAct → List Bytes
  | .accepted t _ => [s.readyPayload t s.delayedAckBytes.toUInt32]
  | _ => []

namespace SocketAct.Step

variable {s : Looper} {r : Ref} {c c' : ASocket} {a : SocketAct} {es : List Effect}

theorem history_eq (h : Step s r c a es c') (ne : ∀ data, a ≠ .receive data) (st : History) :
    st.steps r es = { st.after a with okays := st.okays ++ s.grants a } := by
  cases h
  case receive data w b l hb hd => exact absurd rfl (ne data)
  case ready l n => simp [History.steps_of_neutral n, History.after, Looper.grants]
  case accepted =>
    rw [History.steps_cons, History.steps_cons, History.step_readyEffect, History.steps_nil,
      History.step_of_eq rfl]
    rfl
  case opened k _ =>
    simp [History.step, History.subject, History.record, History.send, k, History.after, Looper.grants]
  case forward k hm _ _ =>
    simp [History.step, History.subject, History.record, History.send, k, hm, History.after,
      Looper.grants]
  all_goals simp [History.step, History.subject, History.record, History.after, Looper.grants]

theorem receive_eq : Step s r c (.receive data) es c' → ∃ q ws f b,
    c' = { c with packetQueue := q, hasWriteError := c.hasWriteError || f, fdeWrite := b } ∧
    c.packetQueue ++ data.getD [] = ws ++ q ∧ (ws ≠ [] → .wrote r ws ∈ es) ∧
    ∀ st : History, st.steps r es = { st with
      received    := st.received ++ data.getD []
      arrivals    := st.arrivals + data.toList.length
      okays       := st.okays ++ s.ackPayloads c' ws.length
      written     := st.written ++ ws
      writeFailed := st.writeFailed || f }
  | .receive (w := w) (b := b) l hb hd => by
    have ⟨q, ws, f, hc, hq, hn, hm, hh⟩ := c.receive_spec r data w
    have ha : s.ackPayloads { ((c.queued data).writev w).1 with fdeWrite := b } ws.length =
        s.ackPayloads ((c.queued data).writev w).1 ws.length := rfl
    refine ⟨q, ws, f, b, by simp [hc], hq, fun h => List.mem_append_left _ (hm h), fun st => ?_⟩
    rw [History.steps_append, History.steps_ackEffects, hh, hn, ha]

theorem history_outgoing (h : Step s r c a es c') (st : History) :
    ∃ received arrivals okays written writeFailed,
      st.steps r es = { st.after a with received, arrivals, okays, written, writeFailed } := by
  by_cases ha : ∃ data, a = .receive data
  case pos =>
    have ⟨data, ha⟩ := ha
    subst ha
    have ⟨_, _, _, _, _, _, _, hh⟩ := h.receive_eq
    exact ⟨_, _, _, _, _, hh st⟩
  case neg => exact ⟨_, _, _, _, _, h.history_eq (fun data hd => ha ⟨data, hd⟩) st⟩

end SocketAct.Step

namespace Looper

variable {s s' : Looper} {r : Ref} {a : Action}

-- What every move of a socket preserves holds of it after the step.
theorem preserved_by_moves {K : Option ASocket → Bool → History → Prop} (r : Ref) (w : s.WF)
    (h : s.next a = some s')
    (move : ∀ s₁ b x y z, s₁.WF → s.Allowed a s₁ b → s₁.Moves r b x y z →
      K (s₁.sock r) (s₁.remotePeer r) (s₁.history r) → K x y z)
    (k : K (s.sock r) (s.remotePeer r) (s.history r)) :
    K (s'.sock r) (s'.remotePeer r) (s'.history r) :=
  preserved_by_next (J := fun s => K (s.sock r) (s.remotePeer r) (s.history r)) w h
    (fun s₁ b _ w₁ hb hs => move s₁ b _ _ _ w₁ hb (hs.moves w₁)) k

end Looper

import LibAdb.Machine.Invariant

namespace Looper

variable {s s' : Looper} {r p n : Ref} {c d : ASocket}

structure SameLists (s s' : Looper) (n : Ref) : Prop where
  list    : n ∈ s'.localSocketList ↔ n ∈ s.localSocketList
  closing : n ∈ s'.localSocketClosingList ↔ n ∈ s.localSocketClosingList

theorem removeSocket_sameLists (h : n ≠ r) : SameLists s (s.removeSocket r) n where
  list    := by simp [removeSocket, h]
  closing := by simp [removeSocket, h]

end Looper

namespace Act.Step

variable {s s' : Looper} {a : Act} {n : Ref}

theorem preserves_sock : Act.Step s a s' → n ∉ a.touches → s'.sock n = s.sock n
  | .create _ _, hn => by
    rw [touches, List.mem_singleton] at hn
    simp [Looper.sock_create, hn]
  | .link .., hn | .unlink .., hn => by
    rw [touches, List.mem_pair, not_or] at hn
    simp [Looper.link, Looper.unlink, Looper.sock_setPeer, hn]
  | .attach hr hp ne .., hn => by
    rw [touches, List.mem_pair, not_or] at hn
    simp [Looper.sock_attached hr hp ne, hn]
  | .release .., hn => by
    rw [touches, List.mem_singleton] at hn
    simp [Looper.sock_release, hn]
  | .destroy .., hn | .drop .., hn => by
    rw [touches, List.mem_singleton] at hn
    simp [Looper.sock_destroy, hn]
  | .linger hr .., hn => by
    rw [touches, List.mem_singleton] at hn
    simp [Looper.sock_linger hr, hn]
  | .finish .., hn => by
    rw [touches, List.mem_pair, not_or] at hn
    simp [Looper.sock_destroy, Looper.unlink, Looper.sock_setPeer, hn]
  | .retire .., hn => by
    rw [touches, List.mem_pair, not_or] at hn
    rw [Looper.sock_linger_of_ne hn.left]
    simp [Looper.unlink, Looper.sock_setPeer, hn]
  | .socket hr _, hn => by
    rw [touches, List.mem_singleton] at hn
    simp [Looper.sock_put hr, hn]
  | .transport, _ | .setWindow, _ | .poll _, _ | .abort, _ => rfl
  | .other sockets .., _ => by simp [Looper.sock, sockets]

theorem preserves_lists : Act.Step s a s' → n ∉ a.touches → s.SameLists s' n
  | .create _ _, hn => by
    rw [touches, List.mem_singleton] at hn
    constructor <;> simp only [Looper.create]
    split <;> simp [hn]
  | .destroy .., hn | .drop .., hn => by
    rw [touches, List.mem_singleton] at hn
    obtain ⟨list, closing⟩ := Looper.removeSocket_sameLists (s := s) hn
    exact ⟨list, closing⟩
  | .linger .., hn => by
    rw [touches, List.mem_singleton] at hn
    constructor <;> simp [Looper.linger, Looper.removeSocket, Looper.put, hn]
  | .finish .., hn => by
    rw [touches, List.mem_pair, not_or] at hn
    obtain ⟨list, closing⟩ := Looper.removeSocket_sameLists (s := s) hn.left
    exact ⟨list, closing⟩
  | .retire .., hn => by
    rw [touches, List.mem_pair, not_or] at hn
    constructor <;> simp [Looper.linger, Looper.removeSocket, Looper.put, hn, Looper.unlink,
      Looper.setPeer]
  | .link .., _ | .unlink .., _ | .attach .., _ | .release .., _ | .socket .., _ | .transport, _
  | .setWindow, _ | .poll _, _ | .abort, _ => ⟨.rfl, .rfl⟩
  | .other _ l cl .., _ => ⟨by rw [l], by rw [cl]⟩

-- What an act leaves alone if it is not an act of that kind.
structure Frame (b : Act) (s s' : Looper) : Prop where
  aborted    : (∀ x, b ≠ .abort x) → s'.aborted = s.aborted
  transports : (∀ t tr, b ≠ .transport t tr) → s'.transports = s.transports
  window     : (∀ w, b ≠ .setWindow w) → s'.delayedAckBytes = s.delayedAckBytes
  nextId     : (∀ r, b ≠ .create r) → s'.localSocketNextId = s.localSocketNextId

theorem frame : Act.Step s b s' → Frame b s s'
  | .abort          => ⟨fun h => absurd rfl (h _), fun _ => rfl, fun _ => rfl, fun _ => rfl⟩
  | .transport      => ⟨fun _ => rfl, fun h => absurd rfl (h _ _), fun _ => rfl, fun _ => rfl⟩
  | .setWindow      => ⟨fun _ => rfl, fun _ => rfl, fun h => absurd rfl (h _), fun _ => rfl⟩
  | .create _ _     => ⟨fun _ => rfl, fun _ => rfl, fun _ => rfl, fun h => absurd rfl (h _)⟩
  | .other _ _ _ i t w a _ _ _ => ⟨fun _ => a, fun _ => t, fun _ => w, fun _ => i⟩
  | .link .. | .attach .. | .unlink .. | .finish .. | .retire .. | .release .. | .destroy ..
  | .drop .. | .linger .. | .socket .. | .poll .. =>
    ⟨fun _ => rfl, fun _ => rfl, fun _ => rfl, fun _ => rfl⟩

theorem stays_aborted (h : Act.Step s b s') (ha : s.aborted.isSome) : s'.aborted.isSome := by
  by_cases hx : ∃ x, b = .abort x
  case pos =>
    obtain ⟨x, rfl⟩ := hx
    cases h
    rfl
  case neg => exact h.frame.aborted (fun x hb => hx ⟨x, hb⟩) ▸ ha

theorem log_prefix : Act.Step s b s' → s.log <+: s'.log
  | .socket .. | .attach .. | .destroy .. | .drop .. | .finish .. => List.prefix_append ..
  | .other _ _ _ _ _ _ _ log _ _ => log ▸ List.prefix_append ..
  | .create .. | .link .. | .unlink .. | .retire .. | .release .. | .linger .. | .transport
  | .setWindow | .poll .. | .abort => List.prefix_rfl

end Act.Step

namespace Acts

variable {s s' : Looper} {P Q : Looper → Act → Prop} {r p n : Ref} {c : ASocket}

theorem refl : Acts P s s :=
  Reach.refl

theorem one (h : Act.Step s a s') (p : P s a) : Acts P s s' :=
  Reach.single p h

theorem trans (h₁ : Acts P s₁ s₂) (h₂ : Acts P s₂ s₃) : Acts P s₁ s₃ :=
  Reach.trans h₁ h₂

theorem tail (h₁ : Acts P s₁ s₂) (p : P s₂ a) (h₂ : Act.Step s₂ a s₃) : Acts P s₁ s₃ :=
  h₁.trans (one h₂ p)

theorem mono (h : Acts P s s') (hPQ : ∀ s a, P s a → Q s a) : Acts Q s s' :=
  Reach.mono hPQ h

-- The frame rule: what no act touches stays as it is.
theorem frame (h : Acts P s s') (hn : ∀ s a, P s a → n ∉ a.touches) :
    s'.sock n = s.sock n ∧ s.SameLists s' n := by
  refine h.invariant (I := fun s' => s'.sock n = s.sock n ∧ s.SameLists s' n) ?_ ⟨rfl, .rfl, .rfl⟩
  intro s₁ a s₂ p hs ⟨hsock, hl⟩
  have hl' := hs.preserves_lists (hn s₁ a p)
  refine ⟨(hs.preserves_sock (hn s₁ a p)).trans hsock, ?_⟩
  exact ⟨hl'.list.trans hl.list, hl'.closing.trans hl.closing⟩

theorem emit (n : ∀ e ∈ es, History.Neutral e) (p : P s .other) : Acts P s (s.emit es) :=
  .one (.other rfl rfl rfl rfl rfl rfl rfl rfl n (List.Subset.refl _)) p

theorem socket (hr : s.sock r = some c) (h : SocketAct.Step s r c a es c') (p : P s (.socket r a)) :
    Acts P s ((s.put r c').emit es) :=
  .one (.socket hr h) p

theorem put (hr : s.sock r = some c) (h : SocketAct.Step s r c a [] c') (p : P s (.socket r a)) :
    Acts P s (s.put r c') :=
  Looper.emit_nil (s := s.put r c') ▸ socket hr h p

theorem silent (sockets : s'.sockets = s.sockets) (l : s'.localSocketList = s.localSocketList)
    (cl : s'.localSocketClosingList = s.localSocketClosingList)
    (i : s'.localSocketNextId = s.localSocketNextId) (t : s'.transports = s.transports)
    (w : s'.delayedAckBytes = s.delayedAckBytes) (a : s'.aborted = s.aborted)
    (log : s'.log = s.log) (rd : s'.ready ⊆ s.ready) (p : P s .other) : Acts P s s' :=
  .one (.other sockets l cl i t w a (log.trans (List.append_nil _).symm) (by simp) rd) p

end Acts

-- The acts of closing sockets. `R` are the sockets involved, `D` those that may be dropped with a
-- part of their queue.
def Act.Closes (R D : Ref → Prop) : Act → Prop
  | .unlink r p | .finish r p | .retire r p => R r ∧ R p
  | .release r | .destroy r | .linger r | .socket r .restore => R r
  | .drop r => R r ∧ D r
  | .other => True
  | _ => False

namespace Act.Closes

variable {R D : Ref → Prop} {a : Act} {n : Ref}

theorem not_touches (h : a.Closes R D) (hn : ¬R n) : n ∉ a.touches := by
  cases a
  case socket r a => cases a <;> grind [Closes, touches]
  all_goals grind [Closes, touches]

theorem mono {R' D' : Ref → Prop} (h : a.Closes R D) (hR : ∀ r, R r → R' r) (hD : ∀ r, D r → D' r) :
    a.Closes R' D' := by
  cases a
  case socket r a => cases a <;> simp_all [Closes]
  all_goals simp_all [Closes]

end Act.Closes

namespace Looper

variable {s : Looper} {r p n : Ref} {c d : ASocket} {R D : Ref → Prop}

theorem sendPacket_eq (s : Looper) (src : Option Ref) (t : Tid) (m : Apacket) :
    ∃ q : Apacket, s.sendPacket src t m = s.emit [.sent src t q] ∧
      q.kind = m.kind ∧ q.payload = m.payload ∧ q.arg0 = m.arg0 ∧ q.arg1 = m.arg1 :=
  ⟨_, rfl, rfl, rfl, rfl, rfl⟩

theorem sendPacket_acts {P : Looper → Act → Prop} (hp : P s .other)
    (h : src = none ∨ m.kind = some .clse) : Acts P s (s.sendPacket src t m) := by
  have ⟨q, hq, hk, _⟩ := s.sendPacket_eq src t m
  rw [hq]
  refine .emit ?_ hp
  simpa [History.Neutral, hk] using h

theorem localSocketFinish_acts (w : s.WF) (hr : s.sock r = some c) (cp : c.peer = none)
    (l : c.ops.isLocal) (hR : R r) (hD : c.closing → c.fdFull → D r) :
    Acts (fun _ => Act.Closes R D) s (s.localSocketFinish r) := by
  simp only [localSocketFinish, hr]
  split
  case isTrue h =>
    by_cases hf : c.fdFull
    case pos =>
      have hc : c.closing := by simp_all [ASocket.fdFull]
      exact .one (.drop hr cp l hc) ⟨hR, hD hc hf⟩
    case neg =>
      refine .one (.destroy hr cp l ?_) hR
      simp only [ASocket.fdFull] at hf
      grind
  case isFalse h =>
    have hc : c.closing = false := by simp_all
    have ha : c.fdeWrite := (w.sound r c hr).armed l (by simp_all [ASocket.fdFull])
    rw [if_pos ha]
    exact .one (.linger hr cp l hc) hR

theorem localSocketFinish_release (ne : r ≠ p) :
    (s.release p).localSocketFinish r = (s.localSocketFinish r).release p := by
  have hs : (s.release p).sock r = s.sock r := by simp [sock_release, ne]
  simp only [localSocketFinish, hs]
  split
  case h_1 => rfl
  case h_2 c hc =>
    split
    case isTrue =>
      simp only [localSocketDestroy, removeSocket, release, emit, Store.free_comm]
    case isFalse =>
      simp only [put, removeSocket, release, abort, Store.modify_free ne]
      split <;> rfl

theorem sever_acts (w : s.WF) (hr : s.sock r = some c) (l : c.ops.isLocal) (cp : c.peer = some p)
    (hp : s.sock p = some d) (dp : d.peer = some r) (dr : d.ops = .remoteSocket)
    (hc : c.closing = false) (hR : R r) (hP : R p) :
    Acts (fun _ => Act.Closes R D) s (((s.unlink r p).release p).localSocketFinish r) := by
  have ne := w.ne_peer hr cp
  have sock (n) := sock_unlink (n := n) hr hp ne
  have hr₁ : (s.unlink r p).sock r = some { c with peer := none } := by simp [sock]
  have hp₁ : (s.unlink r p).sock p = some { d with peer := none } := by simp [sock, ne.symm]
  have ld : d.ops.isLocal = false := by simp [dr, SocketOps.isLocal]
  rw [localSocketFinish_release ne]
  by_cases h : c.hasWriteError ∨ c.packetQueue = []
  case pos =>
    have hf : (s.unlink r p).localSocketFinish r = (s.unlink r p).localSocketDestroy r := by
      simp only [localSocketFinish, hr₁]
      exact if_pos (by simpa [hc] using h)
    have a₁ : Acts (fun _ => Act.Closes R D) s ((s.unlink r p).localSocketDestroy r) :=
      .one (a := Act.finish r p) (.finish hr hp cp dp l dr h) ⟨hR, hP⟩
    have hp₂ : ((s.unlink r p).localSocketDestroy r).sock p = some { d with peer := none } := by
      simp [sock_destroy, ne.symm, hp₁]
    rw [hf]
    exact a₁.tail (a := Act.release p) hP (.release hp₂ rfl ld)
  case neg =>
    have ha : c.fdeWrite := (w.sound r c hr).armed l (by simpa [ASocket.fdFull, and_comm] using h)
    have hf : (s.unlink r p).localSocketFinish r =
        (s.unlink r p).linger r { c with peer := none } := by
      simp only [localSocketFinish, hr₁]
      rw [if_neg (by simpa [hc] using h), if_pos ha]
      rfl
    have a₁ : Acts (fun _ => Act.Closes R D) s ((s.unlink r p).linger r { c with peer := none }) :=
      .one (a := Act.retire r p) (.retire hr hp cp dp l dr hc) ⟨hR, hP⟩
    have hp₂ : ((s.unlink r p).linger r { c with peer := none }).sock p =
        some { d with peer := none } := by
      simp [sock_linger hr₁, ne.symm, hp₁]
    rw [hf]
    exact a₁.tail (a := Act.release p) hP (.release hp₂ rfl ld)

theorem restoreOps_acts {P : Looper → Act → Prop} (hr : s.sock r = some c) (l : c.ops.isLocal)
    (p : P s (.socket r .restore)) : Acts P s (s.restoreOps r) := by
  simp only [restoreOps, hr]
  exact .put hr (.restore l) p

theorem sock_restoreOps (hr : s.sock r = some c) :
    (s.restoreOps r).sock n = if n = r then some { c with ops := .localSocket } else s.sock n := by
  simp [restoreOps, hr, sock_put hr]

@[simp]
theorem history_restoreOps : (s.restoreOps r).history n = s.history n := by
  unfold restoreOps
  split <;> rfl

@[simp]
theorem sock_sendStatus : (s.sendStatus r text).sock = s.sock :=
  rfl

@[simp]
theorem history_sendStatus : (s.sendStatus r text).history n = s.history n := by
  rw [sendStatus, history_emit]
  exact History.steps_of_neutral (by simp [History.Neutral])

theorem sendClosed_acts (hr : s.sock r = some c) (l : c.ops.isLocal) (hR : R r) :
    Acts (fun _ => Act.Closes R D) s ((s.restoreOps r).sendStatus r (failStatus (ascii "closed"))) ∧
      ((s.restoreOps r).sendStatus r (failStatus (ascii "closed"))).sock r =
        some { c with ops := .localSocket } := by
  have h₁ : Acts (fun _ => Act.Closes R D) s (s.restoreOps r) := restoreOps_acts hr l hR
  refine ⟨h₁.trans (.emit (by simp [History.Neutral]) trivial), ?_⟩
  simp [sendStatus, sock_restoreOps hr]

theorem closeDetached_acts (w : s.WF) (hr : s.sock r = some c) (cp : c.peer = none) (hR : R r)
    (hD : c.closing → c.fdFull → D r) : Acts (fun _ => Act.Closes R D) s (s.closeDetached r) := by
  simp only [closeDetached, hr]
  split
  case h_1 ho => exact localSocketFinish_acts w hr cp (by simp [ho, SocketOps.isLocal]) hR hD
  case h_2 ho =>
    have l : c.ops.isLocal := by simp [ho, SocketOps.isLocal]
    have ⟨h₁, hr₁⟩ := sendClosed_acts (D := D) hr l hR
    exact h₁.trans <| localSocketFinish_acts (w.acts h₁) hr₁ cp rfl hR hD
  case h_3 ho | h_4 ho | h_5 ho => exact .one (.release hr cp (by simp [ho, SocketOps.isLocal])) hR

theorem remoteSocketShutdown_acts {P : Looper → Act → Prop} (hp : P s .other) :
    Acts P s (s.remoteSocketShutdown r) := by
  unfold remoteSocketShutdown
  split
  case h_1 => exact .refl
  case h_2 =>
    split
    case h_1 => exact sendPacket_acts hp (by simp)
    case h_2 => exact .refl

@[simp]
theorem sock_remoteSocketShutdown : (s.remoteSocketShutdown r).sock = s.sock := by
  unfold remoteSocketShutdown
  split
  case h_1 => rfl
  case h_2 => split <;> rfl

theorem closePeer_acts (w : s.WF) (hr : s.sock r = some c) (hp : s.sock p = some d)
    (cp : c.peer = some p) (dp : d.peer = some r) (cr : c.ops ≠ .remoteSocket)
    (dr : d.ops ≠ .remoteSocket) (hR : R r) (hP : R p) :
    Acts (fun _ => Act.Closes R D) s ((s.unlink r p).closeDetached p) ∧
      ((s.unlink r p).closeDetached p).sock r = some { c with peer := none } := by
  have ne := w.ne_peer hr cp
  have hd := w.open_of_peer hp dp
  have h₁ : Acts (fun _ => Act.Closes R D) s (s.unlink r p) :=
    .one (a := Act.unlink r p) (.unlink hr hp cp dp cr dr) ⟨hR, hP⟩
  have sock (n) := sock_unlink (n := n) hr hp ne
  have hr₁ : (s.unlink r p).sock r = some { c with peer := none } := by simp [sock]
  have hp₁ : (s.unlink r p).sock p = some { d with peer := none } := by simp [sock, ne.symm]
  have h₂ : Acts (fun _ => Act.Closes (· = p) (fun _ => False)) (s.unlink r p)
      ((s.unlink r p).closeDetached p) :=
    closeDetached_acts (w.acts h₁) hp₁ rfl rfl (by simp [hd])
  have hr₂ := (h₂.frame (n := r) fun _ _ h => h.not_touches ne).left.trans hr₁
  refine ⟨h₁.trans <| h₂.mono fun _ _ h => ?_, hr₂⟩
  exact h.mono (fun _ e => e ▸ hP) (fun _ e => e.elim)

theorem localSocketClose_acts (w : s.WF) (hr : s.sock r = some c) (l : c.ops.isLocal) (hR : R r)
    (hP : ∀ p, c.peer = some p → R p) (hD : c.closing → c.fdFull → D r) :
    Acts (fun _ => Act.Closes R D) s (s.localSocketClose r) := by
  simp only [localSocketClose, hr, Option.bind_some]
  split
  case h_1 cp => exact localSocketFinish_acts w hr cp l hR hD
  case h_2 p cp =>
    have ⟨d, hp, k⟩ := w.peer r c p hr cp
    have hc := w.open_of_peer hr cp
    have h₁ : Acts (fun _ => Act.Closes R D) s (s.remoteSocketShutdown p) :=
      remoteSocketShutdown_acts trivial
    have hr₁ : (s.remoteSocketShutdown p).sock r = some c := by simpa using hr
    have hp₁ : (s.remoteSocketShutdown p).sock p = some d := by simpa using hp
    have w₁ := w.acts h₁
    generalize s.remoteSocketShutdown p = s₁ at h₁ hr₁ hp₁ w₁ ⊢
    by_cases dr : d.ops = .remoteSocket
    case pos =>
      have hd : (s₁.unlink r p).closeDetached p = (s₁.unlink r p).release p := by
        simp [closeDetached, sock_unlink hr₁ hp₁ k.ne, k.ne.symm, dr]
      rw [hd]
      exact h₁.trans <| sever_acts w₁ hr₁ l cp hp₁ k.symm dr hc hR (hP p cp)
    case neg =>
    have cr : c.ops ≠ .remoteSocket := by grind [SocketOps.isLocal]
    have ⟨h₂, hr₂⟩ := closePeer_acts (D := D) w₁ hr₁ hp₁ cp k.symm cr dr hR (hP p cp)
    have h₃ := h₁.trans h₂
    exact h₃.trans <| localSocketFinish_acts (w.acts h₃) hr₂ rfl l hR (by simp [hc])

theorem releasingClose_acts (w : s.WF) (hr : s.sock r = some c) (l : c.ops.isLocal = false)
    (cr : c.ops ≠ .remoteSocket) (hR : R r) (hP : ∀ p, c.peer = some p → R p) :
    Acts (fun _ => Act.Closes R D) s (s.releasingClose r) := by
  simp only [releasingClose, hr, Option.bind_some]
  split
  case h_1 cp => exact .one (.release hr cp l) hR
  case h_2 p cp =>
    have ⟨d, hp, k⟩ := w.peer r c p hr cp
    have dr : d.ops ≠ .remoteSocket := by
      have := k.side
      grind [SocketOps.isLocal]
    have ⟨h₁, hr₁⟩ := closePeer_acts (D := D) w hr hp cp k.symm cr dr hR (hP p cp)
    exact h₁.tail (a := Act.release r) hR (.release hr₁ rfl l)

-- Closing a socket involves the socket and its peer. Only a socket that is closing already can be
-- dropped.
theorem close_acts (w : s.WF) (hr : s.sock r = some c) (cr : c.ops ≠ .remoteSocket) (hR : R r)
    (hP : ∀ p, c.peer = some p → R p) (hD : c.closing → c.fdFull → D r) :
    Acts (fun _ => Act.Closes R D) s (s.close r) := by
  simp only [close, hr]
  split
  case h_1 ho => exact localSocketClose_acts w hr (by simp [ho, SocketOps.isLocal]) hR hP hD
  case h_2 ho =>
    have l : c.ops.isLocal := by simp [ho, SocketOps.isLocal]
    have ⟨h₁, hr₁⟩ := sendClosed_acts (D := D) hr l hR
    exact h₁.trans <| localSocketClose_acts (w.acts h₁) hr₁ rfl hR hP hD
  case h_3 ho => exact absurd ho cr
  case h_4 ho | h_5 ho => exact releasingClose_acts w hr (by simp [ho, SocketOps.isLocal]) cr hR hP

end Looper

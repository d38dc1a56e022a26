import LibAdb.Machine.Transfer

namespace Looper

structure SameEnv (s s' : Looper) : Prop where
  transports : s'.transports = s.transports
  nextId     : s'.localSocketNextId = s.localSocketNextId
  window     : s'.delayedAckBytes = s.delayedAckBytes
  keys       : s'.keys = s.keys
  ready      : s'.ready = s.ready
  next       : s'.sockets.next = s.sockets.next
  aborted    : s.aborted.isSome → s'.aborted.isSome

namespace SameEnv

variable {s s₁ s₂ s₃ : Looper} {r p : Ref} {c : ASocket}

theorem refl : s.SameEnv s :=
  ⟨rfl, rfl, rfl, rfl, rfl, rfl, id⟩

theorem trans (h₁ : s₁.SameEnv s₂) (h₂ : s₂.SameEnv s₃) : s₁.SameEnv s₃ where
  transports := h₂.transports.trans h₁.transports
  nextId     := h₂.nextId.trans h₁.nextId
  window     := h₂.window.trans h₁.window
  keys       := h₂.keys.trans h₁.keys
  ready      := h₂.ready.trans h₁.ready
  next       := h₂.next.trans h₁.next
  aborted    := h₂.aborted ∘ h₁.aborted

theorem sendPacket : s.SameEnv (s.sendPacket src t m) :=
  ⟨rfl, rfl, rfl, rfl, rfl, rfl, id⟩

theorem restoreOps : s.SameEnv (s.restoreOps r) := by
  unfold Looper.restoreOps
  split
  case h_1 => exact refl
  case h_2 => exact ⟨rfl, rfl, rfl, rfl, rfl, rfl, id⟩

theorem localSocketFinish : s.SameEnv (s.localSocketFinish r) := by
  unfold Looper.localSocketFinish
  split
  case h_1 => exact refl
  case h_2 =>
    split
    case isTrue => exact ⟨rfl, rfl, rfl, rfl, rfl, rfl, id⟩
    case isFalse =>
      split
      case isTrue => exact ⟨rfl, rfl, rfl, rfl, rfl, rfl, id⟩
      case isFalse => exact ⟨rfl, rfl, rfl, rfl, rfl, rfl, fun _ => rfl⟩

theorem closeDetached : s.SameEnv (s.closeDetached r) := by
  unfold Looper.closeDetached
  split
  case h_1 => exact refl
  case h_2 =>
    split
    case h_1 => exact localSocketFinish
    case h_2 =>
      have h : s.SameEnv ((s.restoreOps r).sendStatus r (failStatus (ascii "closed"))) :=
        restoreOps.trans ⟨rfl, rfl, rfl, rfl, rfl, rfl, id⟩
      exact h.trans localSocketFinish
    all_goals exact ⟨rfl, rfl, rfl, rfl, rfl, rfl, id⟩

theorem remoteSocketShutdown : s.SameEnv (s.remoteSocketShutdown r) := by
  unfold Looper.remoteSocketShutdown
  split
  case h_1 => exact refl
  case h_2 => split <;> [exact sendPacket; exact refl]

theorem unlink : s.SameEnv (s.unlink r p) :=
  ⟨rfl, rfl, rfl, rfl, rfl, rfl, id⟩

theorem localSocketClose : s.SameEnv (s.localSocketClose r) := by
  unfold Looper.localSocketClose
  split
  case h_1 => exact localSocketFinish
  case h_2 =>
    exact remoteSocketShutdown.trans <| unlink.trans <| closeDetached.trans localSocketFinish

theorem releasingClose : s.SameEnv (s.releasingClose r) := by
  unfold Looper.releasingClose
  split
  case h_1 => exact ⟨rfl, rfl, rfl, rfl, rfl, rfl, id⟩
  case h_2 => exact unlink.trans <| closeDetached.trans ⟨rfl, rfl, rfl, rfl, rfl, rfl, id⟩

theorem close : s.SameEnv (s.close r) := by
  unfold Looper.close
  split
  case h_1 => exact refl
  case h_2 =>
    split
    case h_1 => exact localSocketClose
    case h_2 =>
      have h : s.SameEnv ((s.restoreOps r).sendStatus r (failStatus (ascii "closed"))) :=
        restoreOps.trans ⟨rfl, rfl, rfl, rfl, rfl, rfl, id⟩
      exact h.trans localSocketClose
    all_goals exact releasingClose

theorem localSocketFlushIncoming : s.SameEnv (s.localSocketFlushIncoming r writev).1 := by
  unfold Looper.localSocketFlushIncoming
  split
  case h_1 => exact refl
  case h_2 c _ =>
    dsimp only
    generalize writev r c.packetQueue = wr
    rw [ackFlushed_eq]
    generalize Looper.ackEffects _ r (c.writev wr).1 (c.writev wr).2 = es
    have h : s.SameEnv (((s.put r (c.writev wr).1).emit (c.writevEffects r wr)).emit es) :=
      ⟨rfl, rfl, rfl, rfl, rfl, rfl, id⟩
    split
    case isTrue => exact h.trans close
    case isFalse => exact h.trans ⟨rfl, rfl, rfl, rfl, rfl, rfl, id⟩

end SameEnv

variable {s : Looper} {r n : Ref} {c : ASocket}

theorem writev_eq (c : ASocket) (wr : WriteResult) :
    ∃ q e, (c.writev wr).1 = { c with packetQueue := q, hasWriteError := e } := by
  have ⟨q, _, f, h, _⟩ := c.receive_spec 0 none wr
  have hq : c.queued none = c := by simp [ASocket.queued]
  exact ⟨q, c.hasWriteError || f, hq ▸ h⟩

theorem sock_flushIncoming (hr : s.sock r = some c)
    (h : (s.localSocketFlushIncoming r writev).2 ≠ .destroyed) :
    (s.localSocketFlushIncoming r writev).1.sock n =
      if n = r then some { (c.writev (writev r c.packetQueue)).1 with
        fdeWrite := (c.writev (writev r c.packetQueue)).1.fdFull }
      else s.sock n := by
  simp only [localSocketFlushIncoming, hr] at h ⊢
  generalize writev r c.packetQueue = wr at h ⊢
  rw [ackFlushed_eq] at h ⊢
  split at h
  case isTrue => exact absurd rfl h
  case isFalse hb =>
    rw [if_neg hb, emit_put, emit_put, put_put, sock_emit, sock_emit, sock_put hr]

theorem history_flushIncoming (hr : s.sock r = some c)
    (h : (s.localSocketFlushIncoming r writev).2 ≠ .destroyed) : ∃ written writeFailed okays,
    (s.localSocketFlushIncoming r writev).1.history r =
      { s.history r with written, writeFailed, okays } := by
  simp only [localSocketFlushIncoming, hr] at h ⊢
  generalize writev r c.packetQueue = wr at h ⊢
  obtain ⟨_, ws, f, _, _, _, _, hh⟩ := c.receive_spec r none wr
  have hq : c.queued none = c := by simp [ASocket.queued]
  simp only [ASocket.receiveEffects, hq, Option.toList_none, List.map_nil, List.nil_append,
    Option.getD_none, List.append_nil, List.length_nil, Nat.add_zero] at hh
  rw [ackFlushed_eq] at h ⊢
  split at h
  case isTrue => exact absurd rfl h
  case isFalse hb =>
    rw [if_neg hb, history_put, history_emit, history_emit, history_put,
      History.steps_ackEffects, hh]
    exact ⟨_, _, _, rfl⟩

theorem flushIncoming_destroyed_iff (writev : Ref → Bytes → WriteResult) (hr : s.sock r = some c) :
    (s.localSocketFlushIncoming r writev).2 = .destroyed ↔
      c.closing ∧ (c.writev (writev r c.packetQueue)).1.fdFull = false := by
  simp only [localSocketFlushIncoming, hr]
  obtain ⟨q, e, h⟩ := writev_eq c (writev r c.packetQueue)
  have hc : (c.writev (writev r c.packetQueue)).1.closing = c.closing := by rw [h]
  split
  case isTrue hd => simpa [hc] using hd
  case isFalse hd =>
    constructor
    case mp => split <;> simp
    case mpr => simp_all

theorem history_close_detached (hr : s.sock r = some c) (l : c.ops.isLocal) (cp : c.peer = none) :
    (s.close r).history r =
      if c.closing || c.hasWriteError || c.packetQueue.isEmpty then
        (s.history r).record (.destroyed r)
      else s.history r := by
  have finish (s₁ : Looper) (c₁ : ASocket) (hr₁ : s₁.sock r = some c₁) :
      (s₁.localSocketFinish r).history r =
        if c₁.closing || c₁.hasWriteError || c₁.packetQueue.isEmpty then
          (s₁.history r).record (.destroyed r)
        else s₁.history r := by
    simp only [localSocketFinish, hr₁]
    split
    case isTrue => rw [history_destroy, History.step_of_eq rfl]
    case isFalse => split <;> rfl
  simp only [close, hr]
  split
  case h_1 => simpa only [localSocketClose, hr, Option.bind_some, cp] using finish s c hr
  case h_2 =>
    have hr₁ : ((s.restoreOps r).sendStatus r (failStatus (ascii "closed"))).sock r =
        some { c with ops := .localSocket } := by
      simp [restoreOps, sendStatus, hr, sock_put hr]
    have hh : ((s.restoreOps r).sendStatus r (failStatus (ascii "closed"))).history r =
        s.history r := by
      simp [restoreOps, sendStatus, hr, History.step, History.subject, History.record]
    simpa only [localSocketClose, hr₁, Option.bind_some, cp, hh] using finish _ _ hr₁
  all_goals simp_all [SocketOps.isLocal]

def Opened (s : Looper) (r : Ref) : Prop :=
  ∃ c, s.sock r = some c ∧ c.ops.isLocal ∧ c.closing = false

theorem connectToRemote_open (dest : Bytes) (h : s.Opened r) :
    (s.connectToRemote r dest).Opened r := by
  have ⟨c, hr, l, o⟩ := h
  have hr' (tr : ATransport) (t) : ((s.setTransport t tr).put r (c.opening tr)).Opened r := by
    refine ⟨c.opening tr, by simp [sock_put (s := s.setTransport t tr) hr], ?_, ?_⟩
    · unfold ASocket.opening
      split <;> exact l
    · unfold ASocket.opening
      split <;> exact o
  simp only [connectToRemote, hr]
  split
  case h_1 => exact h
  case h_2 t _ =>
    split
    case h_1 => exact h
    case h_2 tr _ =>
      split
      case isTrue => exact hr' tr t
      case isFalse => exact h

theorem enqueue_open (h : s.Opened r) : (s.localSocketEnqueue r data writev).1.Opened r := by
  have ⟨c, hr, l, o⟩ := h
  have hr' : ((s.put r { c with packetQueue := c.packetQueue ++ data }).emit
      [.enqueued r data]).sock r = some { c with packetQueue := c.packetQueue ++ data } := by
    simp [sock_put hr]
  have hd := mt (flushIncoming_destroyed_iff writev hr').mp (by simp [o])
  have hs := sock_flushIncoming (n := r) hr' hd
  have ⟨q, e, hw⟩ := writev_eq { c with packetQueue := c.packetQueue ++ data }
    (writev r (c.packetQueue ++ data))
  have hopen : (((s.put r { c with packetQueue := c.packetQueue ++ data }).emit
      [.enqueued r data]).localSocketFlushIncoming r writev).1.Opened r :=
    ⟨_, hs.trans (if_pos rfl), by simpa [hw] using l, by simpa [hw] using o⟩
  simp only [localSocketEnqueue, hr]
  split <;> simp_all

theorem sock_enqueue_of_ne (h : s.Opened r) (hn : n ≠ r) :
    (s.localSocketEnqueue r data writev).1.sock n = s.sock n := by
  have ⟨c, hr, l, o⟩ := h
  have hr' : ((s.put r { c with packetQueue := c.packetQueue ++ data }).emit
      [.enqueued r data]).sock r = some { c with packetQueue := c.packetQueue ++ data } := by
    simp [sock_put hr]
  have hd := mt (flushIncoming_destroyed_iff writev hr').mp (by simp [o])
  have hs := (sock_flushIncoming (n := n) hr' hd).trans (if_neg hn)
  rw [sock_emit, sock_put hr, if_neg hn] at hs
  simp only [localSocketEnqueue, hr]
  split <;> simp_all

end Looper

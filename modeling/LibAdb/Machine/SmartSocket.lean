import LibAdb.Machine.Allowed

-- The serial that `parse_host_service` splits off ends in a colon, so that its `CHECK` holds.

namespace HostService

def Terminated (full : Bytes) (k : Nat) : Prop :=
  ∃ i, k = i + 1 ∧ full[i]? = some 58

theorem finish_ne_checkFailed (h : Terminated full k) : finish full k ≠ .checkFailed := by
  have ⟨i, hk, hi⟩ := h
  have hlast : (full.take k).getLast? = some 58 := by
    rw [List.getLast?_take, hk]
    simp [hi]
  simp only [finish, hlast, if_true]
  split <;> simp

theorem findIdx?_terminated (h : (full.drop k).findIdx? (· == 58) = some i) :
    Terminated full (k + i + 1) := by
  have ⟨hlt, hi, _⟩ := List.findIdx?_eq_some_iff_getElem.mp h
  refine ⟨k + i, rfl, ?_⟩
  have h' : (full.drop k)[i]? = some 58 := by simpa [List.getElem?_eq_getElem hlt] using hi
  simpa [List.getElem?_drop] using h'

theorem toColon_terminated (h : toColon full k = some m) : Terminated full m := by
  have ⟨i, hi, hm⟩ := Option.map_eq_some_iff.mp h
  exact hm ▸ findIdx?_terminated hi

theorem port_eq (h : Terminated full k) : ∃ m, Terminated full m ∧ port full k = finish full m := by
  unfold port
  split
  case h_1 => exact ⟨k, h, rfl⟩
  case h_2 next hn =>
    split
    case isTrue => exact ⟨_, findIdx?_terminated hn, rfl⟩
    case isFalse => exact ⟨k, h, rfl⟩

theorem address_terminated (h : address full k = some m) : Terminated full m := by
  unfold address at h
  split at h
  case h_1 =>
    split at h
    case h_1 => exact toColon_terminated h
    case h_2 e _ =>
      split at h
      case h_1 tl hd =>
        cases h
        refine ⟨k + e + 1, rfl, ?_⟩
        have : (full.drop (k + e + 1))[0]? = some 58 := by simp [hd]
        simpa [List.getElem?_drop] using this
      case h_2 => cases h
  case h_2 => exact toColon_terminated h

theorem parse_eq (full : Bytes) : parse full = .invalid ∨
    ∃ k, Terminated full k ∧ parse full = finish full k := by
  have addressed (j : Nat) : ((address full j).map (port full)).getD .invalid = .invalid ∨
      ∃ k, Terminated full k ∧ ((address full j).map (port full)).getD .invalid = finish full k := by
    cases h : address full j
    case none => exact .inl rfl
    case some k => exact .inr (port_eq (address_terminated h))
  unfold parse
  split
  case isTrue => exact .inl rfl
  case isFalse =>
    split
    case h_1 p _ =>
      cases h : toColon full p.length
      case none => exact .inl rfl
      case some k => exact .inr ⟨k, toColon_terminated h, rfl⟩
    case h_2 =>
      dsimp only
      generalize ((ascii "tcp:").isPrefixOf full || (ascii "udp:").isPrefixOf full) = protocol
      by_cases hp : (protocol && full.drop (if protocol then 4 else 0) = []) = true
      case pos => exact .inl (if_pos hp)
      case neg =>
        rw [if_neg hp]
        exact addressed _

theorem parse_ne_checkFailed : parse full ≠ .checkFailed := by
  obtain h | ⟨k, hk, h⟩ := parse_eq full
  · simp [h]
  · exact h ▸ finish_ne_checkFailed hk

end HostService

namespace SmartRequest

theorem ofService_ne_checkFailed : ofService service ≠ .checkFailed := by
  have hostOr' (r) : hostOr service r ≠ .checkFailed := by
    unfold hostOr
    split <;> simp
  have := @HostService.parse_ne_checkFailed
  unfold ofService
  grind

theorem parse_ne_checkFailed : parse data ≠ .checkFailed := by
  have := @ofService_ne_checkFailed
  unfold parse
  grind

end SmartRequest

namespace Looper

variable {s : Looper} {r ss s2 : Ref} {c d : ASocket} {P : Looper → Act → Prop}

section

variable (routine : ∀ s a, a.Routine → P s a)

include routine

theorem sendStatus_acts : Acts P s (s.sendStatus r b) :=
  .emit (by simp [History.Neutral]) (routine _ _ trivial)

theorem close_routine (w : s.WF) (hr : s.sock r = some c) (cr : c.ops ≠ .remoteSocket)
    (hc : c.closing = false) :
    Acts P s (s.close r) := by
  have h : Acts (fun _ => Act.Closes (fun _ => True) (fun _ => False)) s (s.close r) :=
    close_acts w hr cr trivial (fun _ _ => trivial) (by simp [hc])
  exact h.mono fun _ _ h => routine _ _ h.routine

theorem fail_acts (w : s.WF) (hss : s.sock ss = some d) (dr : d.ops ≠ .remoteSocket)
    (hc : d.closing = false) :
    Acts P s ((s.sendStatus r text).close ss) := by
  have h : Acts P s (s.sendStatus r text) := sendStatus_acts routine
  exact h.trans <| close_routine routine (w.acts h) hss dr hc

-- A socket whose peer is on the host gets its data from there.
variable (hrecv : ∀ s' r data, s'.remotePeer r = false → P s' (.socket r (.receive (some data))))

include hrecv

theorem deviceTrackerSend_acts (w : s.WF) (hr : s.sock r = some c) (ho : c.ops = .deviceTracker) :
    Acts P s (s.deviceTrackerSend r os) := by
  have l : c.ops.isLocal = false := by simp [ho, SocketOps.isLocal]
  simp only [deviceTrackerSend, hr, Option.bind_some]
  split
  case h_1 => exact .refl
  case h_2 p cp =>
    obtain ⟨d, hp, k⟩ := w.peer r c p hr cp
    have ld : d.ops.isLocal := by simpa [l] using k.side
    have hn : s.remotePeer p = false := by simp [remotePeer, hp, peerOf, k.symm, hr, ho]
    refine (localSocketEnqueue_acts w hp ld k.symm hr (by simp [ho])).mono fun _ _ h => ?_
    rcases h with ⟨rfl, rfl⟩ | h
    · exact hrecv _ _ _ hn
    · exact routine _ _ h.routine

theorem deviceTrackerReady_acts (w : s.WF) (hr : s.sock r = some c) (ho : c.ops = .deviceTracker) :
    Acts P s (s.deviceTrackerReady r os) := by
  have l : c.ops.isLocal = false := by simp [ho, SocketOps.isLocal]
  simp only [deviceTrackerReady, hr]
  split
  case isTrue =>
    have h₁ : Acts P s (s.put r { c with updateNeeded := false }) :=
      .put hr (.tend l) (routine _ _ trivial)
    have hr₁ : (s.put r { c with updateNeeded := false }).sock r =
        some { c with updateNeeded := false } := by simp [sock_put hr]
    exact h₁.trans <| deviceTrackerSend_acts routine hrecv (w.acts h₁) hr₁ ho
  case isFalse => exact .refl

omit routine hrecv in
theorem deviceTrackerReady_open (hr : s.sock r = some c) (hp : c.peer = some p) (h : s.Opened p) :
    (s.deviceTrackerReady r os).Opened p := by
  simp only [deviceTrackerReady, hr]
  split
  case isTrue =>
    have hr' : (s.put r { c with updateNeeded := false }).sock r =
        some { c with updateNeeded := false } := by simp [sock_put hr]
    have h' : (s.put r { c with updateNeeded := false }).Opened p := by
      have ⟨d, hd, l, o⟩ := h
      by_cases e : p = r
      case pos =>
        subst e
        cases hr.symm.trans hd
        exact ⟨_, hr', l, o⟩
      case neg => exact ⟨d, by simp [sock_put hr, e, hd], l, o⟩
    generalize s.put r { c with updateNeeded := false } = s' at hr' h' ⊢
    simp only [deviceTrackerSend, hr', Option.bind_some, hp]
    exact enqueue_open h'
  case isFalse => exact h

omit routine hrecv in
theorem sock_deviceTrackerReady_of_ne (hr : s.sock r = some c) (hp : c.peer = some p)
    (h : s.Opened p) (ne : p ≠ r) (hn : n ≠ r) (hn' : n ≠ p) :
    (s.deviceTrackerReady r os).sock n = s.sock n := by
  simp only [deviceTrackerReady, hr]
  split
  case isTrue =>
    have hr' : (s.put r { c with updateNeeded := false }).sock r =
        some { c with updateNeeded := false } := by simp [sock_put hr]
    have h' : (s.put r { c with updateNeeded := false }).Opened p := by
      have ⟨d, hd, l, o⟩ := h
      exact ⟨d, by simp [sock_put hr, ne, hd], l, o⟩
    have same : (s.put r { c with updateNeeded := false }).sock n = s.sock n := by simp [sock_put hr, hn]
    generalize s.put r { c with updateNeeded := false } = s' at hr' h' same ⊢
    simp only [deviceTrackerSend, hr', Option.bind_some, hp]
    rw [sock_enqueue_of_ne h' hn', same]
  case isFalse => rfl

omit hrecv in
theorem takeOver_acts (text : Bytes) (w : s.WF) (hss : s.sock ss = some d)
    (hd : d.ops = .smartSocket) (dp : d.peer = some r) (h2 : s.sock s2 = some e) (ep : e.peer = none) (ec : e.closing = false)
    (eo : e.ops ≠ .remoteSocket) (es : e.ops ≠ .smartSocket) (et : e.transport = none) (ea : e.availableSendBytes = none)
    (eh : (s.history s2).opened = false)
    (hlink : ∀ s', (∀ d, s'.sock s2 = some d → d.transport = none) → P s' (.link r s2)) :
    Acts P s (((((s.sendStatus r text).restoreOps r).unlink ss r).link r s2).close ss) ∧
    (((((s.sendStatus r text).restoreOps r).unlink ss r).link r s2).close ss).sock s2 =
      some { e with peer := some r } ∧
    (((((s.sendStatus r text).restoreOps r).unlink ss r).link r s2).close ss).Opened r ∧
    (((((s.sendStatus r text).restoreOps r).unlink ss r).link r s2).close ss).sock ss = none := by
  obtain ⟨c, hr, k⟩ := w.peer ss d r hss dp
  have ld : d.ops.isLocal = false := by simp [hd, SocketOps.isLocal]
  have lc : c.ops.isLocal := by simpa [ld] using k.side
  have cc := w.open_of_peer hr k.symm
  obtain ⟨d', hd', k'⟩ := w.peer r c ss hr k.symm
  have hdev : (s.history r).opened = false ∧ c.availableSendBytes = none := by
    cases hss.symm.trans hd'
    simpa using mt k'.device (by simp [hd])
  have ne₁ : s2 ≠ ss := by grind
  have ne₂ : s2 ≠ r := by grind [k.symm]
  have ne₃ := k.ne
  have h₁ : Acts P s (s.sendStatus r text) := sendStatus_acts routine
  have hr₁ : (s.sendStatus r text).sock r = some c := hr
  have h₂ := h₁.trans <| restoreOps_acts hr₁ lc (routine _ (.socket r .restore) trivial)
  have sock₂ (n) := sock_restoreOps (n := n) hr₁
  have hist₂ (n) : ((s.sendStatus r text).restoreOps r).history n = s.history n := by simp
  generalize (s.sendStatus r text).restoreOps r = s₂ at h₂ sock₂ hist₂ ⊢
  have hss₂ : s₂.sock ss = some d := by simp [sock₂, ne₃, hss]
  have hr₂ : s₂.sock r = some { c with ops := .localSocket } := by simp [sock₂]
  have h₃ := h₂.tail (routine _ (.unlink ss r) trivial)
    (.unlink hss₂ hr₂ dp k.symm (by simp [hd]) (by simp))
  have sock₃ (n) := sock_unlink (n := n) hss₂ hr₂ ne₃
  have hist₃ (n) : (s₂.unlink ss r).history n = s.history n := hist₂ n
  generalize s₂.unlink ss r = s₃ at h₃ sock₃ hist₃ ⊢
  have hr₃ : s₃.sock r = some { c with ops := .localSocket, peer := none } := by
    simp [sock₃, ne₃.symm]
  have h2₃ : s₃.sock s2 = some e := by simp [sock₃, sock₂, ne₁, ne₂, h2]
  have h₄ := h₃.tail (hlink s₃ (by simp [h2₃, et])) <|
    .link hr₃ h2₃ ne₂.symm rfl cc ec rfl ep (by simpa [hist₃] using hdev) (by simp [hist₃, eh, ea])
      (by simp [eo]) (by simp [es])
  have sock₄ (n) := sock_link (n := n) hr₃ h2₃ ne₂.symm
  generalize s₃.link r s2 = s₄ at h₄ sock₄ ⊢
  have hss₄ : s₄.sock ss = some { d with peer := none } := by simp [sock₄, ne₁.symm, ne₃, sock₃]
  have hclose : s₄.close ss = s₄.release ss := by simp [close, hss₄, hd, releasingClose]
  rw [hclose]
  refine ⟨h₄.tail (routine _ (.release ss) trivial) (.release hss₄ rfl ld), ?_, ?_, ?_⟩
  · simp [sock_release, ne₁, sock₄, ne₂]
  · exact ⟨{ c with ops := .localSocket, peer := some s2 }, by simp [sock_release, ne₃.symm, sock₄],
      rfl, cc⟩
  · simp [sock_release]

-- A socket whose peer is not a remote socket may be made ready at any time, and it may be linked to
-- a socket that is not bound to a transport.
variable (hready : ∀ s' r, (∀ c p d, s'.sock r = some c → c.peer = some p → s'.sock p = some d →
    d.ops ≠ .remoteSocket) → P s' (.socket r .ready))
  (hlink : ∀ s' r p, s.sockets.next ≤ p → (∀ d, s'.sock p = some d → d.transport = none) → P s' (.link r p))

include hready hlink

-- The client's socket has left the smart socket, which is gone or starts over.
structure TakenOver (s : Looper) (ss r : Ref) : Prop where
  opened : s.Opened r
  left   : ∀ d, s.sock ss = some d → d.smartSocketData = []

theorem connectToService_acts (os : Os) (w : s.WF) (hss : s.sock ss = some d) (hd : d.ops = .smartSocket)
    (dp : d.peer = some r)
    (ha : hostServiceToSocket service = .localSocket → s.IdsExhausted →
      P s (.abort .idOverflow)) :
    Acts P s (s.connectToService ss r service os).1 ∧
      ((s.connectToService ss r service os).2 ≠ .error →
        (s.connectToService ss r service os).1.TakenOver ss r) := by
  have hn : ss ≠ s.sockets.next := Store.ne_next hss
  have hh : (s.history s.sockets.next).opened = false := by simp [w.fresh _ (Nat.le_refl _)]
  have hc := w.open_of_peer hss dp
  unfold connectToService
  split
  case h_1 => exact ⟨fail_acts routine w hss (by simp [hd]) hc, by simp⟩
  case h_2 hs =>
    have h₁ : Acts P s (s.createLocalSocket none).1 :=
      createLocalSocket_acts (fun _ => routine _ (.create _) trivial) (ha hs)
    have hss₁ : (s.createLocalSocket none).1.sock ss = some d := by
      simp [sock_createLocalSocket, hn, hss]
    have h2₁ : (s.createLocalSocket none).1.sock s.sockets.next = some (s.newLocalSocket none) := by
      simp [sock_createLocalSocket]
    obtain ⟨h₂, h2, ⟨c, hr, l, hc⟩, gone⟩ := takeOver_acts routine (ascii "OKAY") (w.acts h₁) hss₁ hd dp h2₁
      rfl rfl (by simp [newLocalSocket]) (by simp [newLocalSocket]) rfl rfl (by simp [hh])
      (fun s' => hlink s' r _ (Nat.le_refl _))
    refine ⟨h₁.trans <| h₂.trans <| localSocketReady_acts h2 <| hready _ _ ?_, fun _ => ?_⟩
    · intro _ _ _ h hp hd
      cases h2.symm.trans h
      cases hp
      cases hr.symm.trans hd
      grind [SocketOps.isLocal]
    · have hne : r ≠ s.sockets.next := by
        obtain ⟨_, hr, _⟩ := w.peer ss d r hss dp
        exact Store.ne_next hr
      have hs (n) := sock_localSocketReady (n := n) h2 rfl
      refine ⟨⟨c, ((hs r).trans (if_neg hne)).trans hr, l, hc⟩, fun _ h => ?_⟩
      cases (((hs ss).trans (if_neg hn)).trans gone).symm.trans h
  case h_3 hs =>
    have h₁ : Acts P s s.createDeviceTracker.1 :=
      .one (.create (by constructor <;> simp [SocketOps.isLocal]) (by simp [SocketOps.isLocal]))
        (routine _ (.create _) trivial)
    have hss₁ : s.createDeviceTracker.1.sock ss = some d := by
      simpa [createDeviceTracker, sock, Store.get_alloc_of_ne hn] using hss
    have h2₁ : s.createDeviceTracker.1.sock s.sockets.next =
        some { ops := .deviceTracker, updateNeeded := true } := by
      simp [createDeviceTracker, sock]
    obtain ⟨h₂, h2, ho, gone⟩ := takeOver_acts routine (ascii "OKAY") (w.acts h₁) hss₁ hd dp h2₁
      rfl rfl (by simp) (by simp) rfl rfl hh (fun s' => hlink s' r _ (Nat.le_refl _))
    have h₃ := h₁.trans h₂
    refine ⟨h₃.trans <| deviceTrackerReady_acts routine hrecv (w.acts h₃) h2 rfl, fun _ => ?_⟩
    have hne : r ≠ s.sockets.next := by
      obtain ⟨_, hr, _⟩ := w.peer ss d r hss dp
      exact Store.ne_next hr
    refine ⟨deviceTrackerReady_open h2 rfl ho, fun _ h => ?_⟩
    obtain ⟨_, _, k⟩ := w.peer ss d r hss dp
    cases ((sock_deviceTrackerReady_of_ne h2 rfl ho hne hn k.ne).trans gone).symm.trans h

omit hrecv hready hlink in
theorem connectToDevice_acts (w : s.WF) (hss : s.sock ss = some d) (hd : d.ops = .smartSocket)
    (dp : d.peer = some r) (hkeep : ∀ s' tr, linkOf tr = linkOf (s'.transports t) →
      P s' (.transport t tr)) (hopen : ∀ s', P s' (.socket r (.opened t)))
    (hbind : ∀ s' : Looper, s'.aborted.isSome → P s' (.socket r (.bind t)))
    (ha : s.OpenAborts t dest → ∀ s' x, x ≠ .closingNotArmed → P s' (.abort x)) :
    Acts P s (s.connectToDevice ss r t dest) ∧ (s.connectToDevice ss r t dest).TakenOver ss r := by
  obtain ⟨c, hr, k⟩ := w.peer ss d r hss dp
  have ld : d.ops.isLocal = false := by simp [hd, SocketOps.isLocal]
  have lc : c.ops.isLocal := by simpa [ld] using k.side
  have cc := w.open_of_peer hr k.symm
  have dc := w.open_of_peer hss dp
  obtain ⟨d', hd', k'⟩ := w.peer r c ss hr k.symm
  cases hss.symm.trans hd'
  have ca : c.availableSendBytes = none := by
    have h := mt k'.device (by simp [hd])
    simp_all
  have cr : c.ops ≠ .remoteSocket := by grind [SocketOps.isLocal]
  have h₁ : Acts P s (s.unlink ss r) :=
    .one (.unlink hss hr dp k.symm (by simp [hd]) cr) (routine _ (.unlink ss r) trivial)
  have sock₁ (n) := sock_unlink (n := n) hss hr k.ne
  have hr₁ : (s.unlink ss r).sock r = some { c with peer := none } := by simp [sock₁, k.ne.symm]
  simp only [connectToDevice, hr₁]
  have hr₂ : ((s.unlink ss r).put r
      { c with peer := none, ops := .localNotify, transport := some t }).sock r =
        some { c with peer := none, ops := .localNotify, transport := some t } := by
    simp [sock_put hr₁]
  have hss₂ : ((s.unlink ss r).put r
      { c with peer := none, ops := .localNotify, transport := some t }).sock ss =
        some { d with peer := none } := by
    simp [sock_put hr₁, k.ne, sock₁]
  have hab : (s.unlink ss r).OpenAborts t dest → ∀ s' x, x ≠ .closingNotArmed → P s' (.abort x) := ha
  have hu : (s.unlink ss r).Unused r { c with peer := none } := (k'.request hd).congr rfl rfl
  have h₃ := h₁.trans <| connectToRemote_acts (t := t) .localNotify dest hr₁ lc cc rfl ca rfl
    hu (hkeep _) hopen hbind
    (fun h => hab (by simp [OpenAborts, h]) _ _ (by simp))
    (fun tr h hl s' => hab (by simpa [OpenAborts, h] using hl) _ _ (by simp))
  generalize (s.unlink ss r).put r
    { c with peer := none, ops := .localNotify, transport := some t } = s₂ at h₃ hr₂ hss₂ ⊢
  have hss₃ : (s₂.connectToRemote r dest).sock ss = some { d with peer := none } := by
    rw [sock_connectToRemote_of_ne k.ne, hss₂]
  refine ⟨h₃.trans <| close_routine routine (w.acts h₃) hss₃ (by simp [hd]) dc, ?_⟩
  have hclose : (s₂.connectToRemote r dest).close ss = (s₂.connectToRemote r dest).release ss := by
    simp [close, hss₃, hd, releasingClose]
  obtain ⟨c', hr', l, o⟩ := connectToRemote_open dest ⟨_, hr₂, rfl, cc⟩
  refine ⟨⟨c', by simp [hclose, sock_release, k.ne.symm, hr'], l, o⟩, fun _ h => ?_⟩
  rw [hclose, sock_release, if_pos rfl] at h
  cases h

theorem smartSocketEnqueue_acts (w : s.WF) (hss : s.sock ss = some d) (hd : d.ops = .smartSocket)
    (dp : d.peer = some r)
    (hswitch : ∀ request t, SmartRequest.parse (d.smartSocketData ++ data) = .host request →
      os.handleHostRequest request = .switchedTransport t →
      ∀ s', (s'.sock ss).bind (·.peer) = some r → P s' (.socket ss (.switch t)))
    (hkeep : ∀ s' t tr, linkOf tr = linkOf (s'.transports t) → P s' (.transport t tr))
    (hopen : ∀ t, d.transport = some t →
      connectionStateIsOnline (s.transports t).connectionState → ∀ s', P s' (.socket r (.opened t)))
    (hbind : ∀ t, d.transport = some t →
      connectionStateIsOnline (s.transports t).connectionState → ∀ s' : Looper, s'.aborted.isSome →
        P s' (.socket r (.bind t)))
    (hfatal : s.Fatal d os (SmartRequest.parse (d.smartSocketData ++ data)) →
      ∀ s' x, x ≠ .closingNotArmed → P s' (.abort x)) :
    Acts P s (s.smartSocketEnqueue ss data os).1 ∧
      ((s.smartSocketEnqueue ss data os).2 ≠ .error →
        (s.smartSocketEnqueue ss data os).1.Opened r ∧
          (SmartRequest.parse (d.smartSocketData ++ data) ≠ .incomplete →
            (s.smartSocketEnqueue ss data os).1.TakenOver ss r)) := by
  have ⟨c, hr, k⟩ := w.peer ss d r hss dp
  have ld : d.ops.isLocal = false := by simp [hd, SocketOps.isLocal]
  have lc : c.ops.isLocal := by simpa [ld] using k.side
  have cc := w.open_of_peer hr k.symm
  have dc := w.open_of_peer hss dp
  have dr : d.ops ≠ .remoteSocket := by simp [hd]
  have h₁ : Acts P s (s.put ss { d with smartSocketData := d.smartSocketData ++ data }) :=
    .put hss (.tend ld) (routine _ (.socket ss .tend) trivial)
  have hss₁ : (s.put ss { d with smartSocketData := d.smartSocketData ++ data }).sock ss =
      some { d with smartSocketData := d.smartSocketData ++ data } := by simp [sock_put hss]
  have w₁ := w.acts h₁
  have open₁ (e) : (s.put ss e).Opened r := ⟨c, by simp [sock_put hss, k.ne.symm, hr], lc, cc⟩
  simp only [smartSocketEnqueue, hss]
  split
  case h_1 h => cases dp.symm.trans h
  case h_2 r' h =>
    cases dp.symm.trans h
    split
    case h_1 h => exact ⟨h₁, fun _ => ⟨open₁ _, fun hn => absurd h hn⟩⟩
    case h_2 => exact ⟨h₁.trans <| close_routine routine w₁ hss₁ dr dc, by simp⟩
    case h_3 => exact ⟨h₁, by simp⟩
    case h_4 h => exact absurd h SmartRequest.parse_ne_checkFailed
    case h_5 request h =>
      split
      case h_1 => exact ⟨h₁.trans <| close_routine routine w₁ hss₁ dr dc, by simp⟩
      case h_2 t ht =>
        refine ⟨h₁.trans <| .put hss₁ (.switch hd) (hswitch request t h ht _ (by rw [hss₁]; exact dp)),
          fun _ => ?_⟩
        rw [put_put]
        refine ⟨open₁ _, fun _ => ⟨open₁ _, fun _ h => ?_⟩⟩
        rw [sock_put hss, if_pos rfl] at h
        cases h
        rfl
      case h_3 hu =>
        have h₂ := connectToService_acts
          (s := s.put ss { d with smartSocketData := d.smartSocketData ++ data }) routine hrecv hready hlink os
          w₁ hss₁ hd dp fun hl hi => hfatal (h ▸ ⟨hu, hl, hi⟩) _ _ (by simp)
        exact ⟨h₁.trans h₂.left, fun hn => ⟨(h₂.right hn).opened, fun _ => h₂.right hn⟩⟩
    case h_6 dest h =>
      split
      case h_1 => exact ⟨h₁.trans <| fail_acts routine w₁ hss₁ dr dc, by simp⟩
      case h_2 t ht =>
        split
        case isTrue ho =>
          have h₂ := connectToDevice_acts routine w₁ hss₁ hd dp (hkeep · t) (hopen t ht ho)
            (hbind t ht ho) fun hx => hfatal (h ▸ ⟨t, ht, ho, hx⟩)
          exact ⟨h₁.trans h₂.left, fun _ => ⟨h₂.right.opened, fun _ => h₂.right⟩⟩
        case isFalse => exact ⟨h₁.trans <| fail_acts routine w₁ hss₁ dr dc, by simp⟩

end

end Looper

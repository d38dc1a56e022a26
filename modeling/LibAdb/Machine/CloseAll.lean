import LibAdb.Machine.Refinement

-- The two lists of local sockets, and closing all sockets of a transport.

namespace Looper

variable {s s' : Looper} {r p n : Ref} {c d : ASocket} {t : Tid}

-- The socket is gone, or it only waits for the rest of its queue to be written.
def Closed (s : Looper) (r : Ref) : Prop :=
  ∀ c, s.sock r = some c → c.closing

theorem Closed.of_none (h : s.sock r = none) : s.Closed r := by
  intro c hc
  cases h.symm.trans hc

theorem Closed.congr (h : s'.sock r = s.sock r) (hc : s.Closed r) : s'.Closed r :=
  fun c hr => hc c (h ▸ hr)

theorem Closed.not_opened (h : s.Closed r) : ¬s.Opened r := by
  rintro ⟨c, hr, _, o⟩
  simp [h c hr] at o

theorem localSocketFinish_closed : (s.localSocketFinish r).Closed r := by
  unfold localSocketFinish
  split
  case h_1 h => exact .of_none h
  case h_2 c hr =>
    split
    case isTrue => exact .of_none (by simp [sock_destroy])
    case isFalse =>
      have hs : (s.linger r c).sock r = some { c with closing := true, fdeRead := false } := by
        simp [sock_linger hr]
      have hc : (s.linger r c).Closed r := by
        intro c' hr'
        cases hs.symm.trans hr'
        rfl
      split <;> exact hc

theorem sock_localSocketFinish_of_ne (h : n ≠ r) : (s.localSocketFinish r).sock n = s.sock n := by
  unfold localSocketFinish
  split
  case h_1 => rfl
  case h_2 c hr =>
    split
    case isTrue => simp [sock_destroy, h]
    case isFalse =>
      have hs : (s.linger r c).sock n = s.sock n := by simp [sock_linger hr, h]
      split <;> exact hs

theorem closeDetached_closed : (s.closeDetached r).Closed r := by
  unfold closeDetached
  split
  case h_1 h => exact .of_none h
  case h_2 =>
    split
    case h_1 | h_2 => exact localSocketFinish_closed
    all_goals exact .of_none (by simp [sock_release])

theorem localSocketClose_closed (hr : s.sock r = some c) : (s.localSocketClose r).Closed r ∧
    ∀ p, c.peer = some p → p ≠ r → (s.localSocketClose r).Closed p := by
  simp only [localSocketClose, hr, Option.bind_some]
  split
  case h_1 cp => exact ⟨localSocketFinish_closed, by simp [cp]⟩
  case h_2 p cp =>
    refine ⟨localSocketFinish_closed, fun q cq ne => ?_⟩
    cases cp.symm.trans cq
    exact closeDetached_closed.congr (sock_localSocketFinish_of_ne ne)

theorem releasingClose_closed (hr : s.sock r = some c) : (s.releasingClose r).sock r = none ∧
    ∀ p, c.peer = some p → p ≠ r → (s.releasingClose r).Closed p := by
  simp only [releasingClose, hr, Option.bind_some]
  split
  case h_1 cp => exact ⟨by simp [sock_release], by simp [cp]⟩
  case h_2 p cp =>
    refine ⟨by simp [sock_release], fun q cq ne => ?_⟩
    cases cp.symm.trans cq
    have h : (((s.unlink r p).closeDetached p).release r).sock p =
        ((s.unlink r p).closeDetached p).sock p := by simp [sock_release, ne]
    exact closeDetached_closed.congr h

theorem close_closed (w : s.WF) (hr : s.sock r = some c) :
    (s.close r).Closed r ∧ ∀ p, c.peer = some p → (s.close r).Closed p := by
  have ne (p) (cp : c.peer = some p) : p ≠ r := by
    have ⟨_, _, k⟩ := w.peer r c p hr cp
    exact k.ne.symm
  simp only [close, hr]
  split
  case h_1 =>
    have h := localSocketClose_closed hr
    exact ⟨h.left, fun p cp => h.right p cp (ne p cp)⟩
  case h_2 =>
    have hr' : ((s.restoreOps r).sendStatus r (failStatus (ascii "closed"))).sock r =
        some { c with ops := .localSocket } := by
      simp [sendStatus, sock_restoreOps hr]
    have h := localSocketClose_closed hr'
    exact ⟨h.left, fun p cp => h.right p cp (ne p cp)⟩
  all_goals
    have h := releasingClose_closed hr
    exact ⟨.of_none h.left, fun p cp => h.right p cp (ne p cp)⟩

theorem belongs_iff (hr : s.sock r = some c) : s.belongs t r ↔
    c.transport = some t ∨ ∃ p d, c.peer = some p ∧ s.sock p = some d ∧ d.transport = some t := by
  cases hp : c.peer <;> simp [belongs, hr, peerOf, hp, Option.any_eq_true]

theorem WF.belongs_peer (w : s.WF) (hp : (s.sock r).bind (·.peer) = some p) (h : s.belongs t r) :
    s.belongs t p := by
  have ⟨c, hr, cp⟩ := Option.bind_eq_some_iff.mp hp
  have ⟨d, hd, k⟩ := w.peer r c p hr cp
  rw [belongs_iff hr] at h
  rw [belongs_iff hd]
  rcases h with h | ⟨p', d', cp', hd', h⟩
  · exact .inr ⟨r, c, k.symm, hr, h⟩
  · cases cp.symm.trans cp'
    cases hd.symm.trans hd'
    exact .inl h

theorem belongs_congr (hr : s'.sock r = s.sock r)
    (hp : ∀ p, (s.sock r).bind (·.peer) = some p → s'.sock p = s.sock p) :
    s'.belongs t r = s.belongs t r := by
  simp only [belongs, hr]
  split
  case h_1 => rfl
  case h_2 c hc =>
    have h : s'.peerOf c = s.peerOf c := by
      simp only [peerOf]
      cases cp : c.peer
      case none => rfl
      case some p => exact hp p (by simp [hc, cp])
    rw [h]

end Looper

theorem Act.Step.list_sublist {s s' : Looper} (h : Act.Step s b s') (hc : b.Closes R D) :
    s'.localSocketList.Sublist s.localSocketList := by
  cases h
  case unlink | release | socket => exact List.Sublist.refl _
  case destroy | drop | linger | finish | retire => exact List.filter_sublist
  case other _ l _ _ _ _ _ _ _ => exact l ▸ List.Sublist.refl _
  all_goals exact hc.elim

namespace Looper

variable {s s' : Looper} {r p n k : Ref} {c d : ASocket} {t : Tid}

theorem hangUp_sublist (w : s.WF) (h : r ∈ s.localSocketList) :
    ((s.emit [.closedByRemote r]).close r).localSocketList.Sublist s.localSocketList := by
  refine (hangUp_closes w h).invariant
    (I := fun s' => s'.localSocketList.Sublist s.localSocketList) ?_ (List.Sublist.refl _)
  intro s₁ b s₂ hb hs ih
  rcases hb with hb | hb
  · subst hb
    cases hs
    exact ih
  · exact (hs.list_sublist hb).trans ih

theorem hangUp_shorter (w : s.WF) (h : r ∈ s.localSocketList) :
    ((s.emit [.closedByRemote r]).close r).localSocketList.length < s.localSocketList.length := by
  have ⟨c, hr, _⟩ := w.mem_list h
  have a₁ := hangUp_closes w h
  have sub := hangUp_sublist w h
  have a₀ : s.emit [.closedByRemote r] = (s.put r c).emit [.closedByRemote r] := by rw [put_self hr]
  have w₀ : (s.emit [.closedByRemote r]).WF := by
    rw [a₀]
    have ⟨_, hr', l, _⟩ := w.mem_list h
    cases hr.symm.trans hr'
    exact w.socket hr (.hangUp l)
  have closed := (close_closed w₀ (r := r) (c := c) hr).left
  refine Nat.lt_of_le_of_ne sub.length_le fun e => ?_
  have hm := sub.eq_of_length e ▸ h
  exact closed.not_opened ((w.acts a₁).mem_list hm)

theorem hangUp_frame (w : s.WF) (h : r ∈ s.localSocketList) (hb : s.belongs t r)
    (hk : s.belongs t k = false) : ((s.emit [.closedByRemote r]).close r).sock k = s.sock k ∧
      s.SameLists ((s.emit [.closedByRemote r]).close r) k := by
  refine (hangUp_closes w h).frame fun _ b ha hn => ?_
  rcases ha.near hn with he | he
  · simp [he, hb] at hk
  · simp [w.belongs_peer he hb] at hk

theorem hangUp_belongs (w : s.WF) (h : r ∈ s.localSocketList) (hb : s.belongs t r)
    (hk : s.belongs t k = false) : ((s.emit [.closedByRemote r]).close r).belongs t k = false := by
  rw [← hk]
  refine belongs_congr (hangUp_frame w h hb hk).left fun q hq => (hangUp_frame w h hb ?_).left
  refine Bool.eq_false_iff.mpr fun hbq => ?_
  have ⟨c, hc, cp⟩ := Option.bind_eq_some_iff.mp hq
  have ⟨d, hd, link⟩ := w.peer k c q hc cp
  have := w.belongs_peer (r := q) (p := k) (by simp [hd, link.symm]) hbq
  simp [hk] at this

theorem closeSockets_complete (w : s.WF) (hn : s.localSocketList.length ≤ n) :
    ∀ r ∈ (closeSockets t n s).localSocketList, (closeSockets t n s).belongs t r = false := by
  induction n generalizing s
  case zero =>
    intro r hr
    have : s.localSocketList = [] := List.eq_nil_of_length_eq_zero (Nat.le_zero.mp hn)
    simp [closeSockets, this] at hr
  case succ n ih =>
    unfold closeSockets
    split
    case h_1 hf =>
      intro r hr
      simpa using List.find?_eq_none.mp hf r hr
    case h_2 r hf =>
      have hm := List.mem_of_find?_eq_some hf
      exact ih (w.acts (hangUp_closes w hm)) (by have := hangUp_shorter w hm; omega)

-- The loop has come to its end after as many rounds as there are sockets in the list.
theorem closeSockets_eq (w : s.WF) (hn : s.localSocketList.length ≤ n)
    (hm : s.localSocketList.length ≤ m) : closeSockets t n s = closeSockets t m s := by
  induction n generalizing s m
  case zero =>
    have : s.localSocketList = [] := List.eq_nil_of_length_eq_zero (Nat.le_zero.mp hn)
    cases m <;> simp [closeSockets, this]
  case succ n ih =>
    cases m
    case zero =>
      have : s.localSocketList = [] := List.eq_nil_of_length_eq_zero (Nat.le_zero.mp hm)
      simp [closeSockets, this]
    case succ m =>
      unfold closeSockets
      split
      case h_1 => rfl
      case h_2 r hf =>
        have hr := List.mem_of_find?_eq_some hf
        have := hangUp_shorter w hr
        exact ih (w.acts (hangUp_closes w hr)) (by omega) (by omega)

theorem closeSockets_frame (w : s.WF) (hk : s.belongs t k = false) :
    (closeSockets t n s).sock k = s.sock k ∧ s.SameLists (closeSockets t n s) k := by
  induction n generalizing s
  case zero => exact ⟨rfl, .rfl, .rfl⟩
  case succ n ih =>
    unfold closeSockets
    split
    case h_1 => exact ⟨rfl, .rfl, .rfl⟩
    case h_2 r hf =>
      have hm := List.mem_of_find?_eq_some hf
      have hb : s.belongs t r := List.find?_some hf
      have ⟨hsock, hlist⟩ := hangUp_frame w hm hb hk
      have ⟨hsock', hlist'⟩ := ih (w.acts (hangUp_closes w hm)) (hangUp_belongs w hm hb hk)
      exact ⟨hsock'.trans hsock, hlist'.list.trans hlist.list, hlist'.closing.trans hlist.closing⟩

theorem handleOffline_complete (w : s.WF) (h : (s.transports t).connectionState ≠ .offline)
    (hr : r ∈ (s.handleOffline t).localSocketList) : (s.handleOffline t).belongs t r = false := by
  simp only [handleOffline, if_neg h] at hr ⊢
  have w₁ : (s.setTransport t { s.transports t with
      connectionState := .offline, online := false }).WF :=
    w.acts (.one (P := fun _ _ => True) .transport trivial)
  exact closeSockets_complete w₁ (Nat.le_refl _) r hr

-- The closing sockets are in the one list and the other local sockets in the other one.
structure Lists (s : Looper) : Prop where
  nodup   : (s.localSocketList ++ s.localSocketClosingList).Nodup
  closing : ∀ r, r ∈ s.localSocketClosingList ↔ ∃ c, s.sock r = some c ∧ c.closing

namespace Lists

theorem congr (k : s.Lists) (l : s'.localSocketList = s.localSocketList)
    (cl : s'.localSocketClosingList = s.localSocketClosingList)
    (h : ∀ r, (∃ c, s'.sock r = some c ∧ c.closing) ↔ ∃ c, s.sock r = some c ∧ c.closing) :
    s'.Lists where
  nodup     := l ▸ cl ▸ k.nodup
  closing r := (cl ▸ k.closing r).trans (h r).symm

theorem create (w : s.WF) (k : s.Lists) (h : c.Fresh) : (s.create c).Lists where
  nodup := by
    have hn : s.sock s.sockets.next = none := sock_next
    have h₁ := mt (w.list s.sockets.next).mp (by simp [hn])
    have h₂ := mt (k.closing s.sockets.next).mp (by simp [hn])
    have := k.nodup
    simp only [Looper.create]
    split <;> grind
  closing r := by
    have hn : s.sock s.sockets.next = none := sock_next
    have hc := h.closing
    have := k.closing r
    have hl : (s.create c).localSocketClosingList = s.localSocketClosingList := rfl
    grind [sock_create]

theorem destroy (k : s.Lists) : (s.localSocketDestroy r).Lists := by
  have l : (s.localSocketDestroy r).localSocketList = s.localSocketList.filter (· != r) := rfl
  have cl : (s.localSocketDestroy r).localSocketClosingList =
    s.localSocketClosingList.filter (· != r) := rfl
  constructor
  case nodup =>
    rw [l, cl, ← List.filter_append]
    exact k.nodup.filter _
  case closing =>
    intro n
    have := k.closing n
    grind [sock_destroy]

theorem unlink (w : s.WF) (k : s.Lists) (hr : s.sock r = some c) (hp : s.sock p = some d)
    (cp : c.peer = some p) : (s.unlink r p).Lists := by
  have sock (n) := sock_unlink (n := n) hr hp (w.ne_peer hr cp)
  exact k.congr rfl rfl fun n => by grind

theorem linger (k : s.Lists) (hr : s.sock r = some c) : (s.linger r c).Lists := by
  have l : (s.linger r c).localSocketList = s.localSocketList.filter (· != r) := rfl
  have cl : (s.linger r c).localSocketClosingList =
    s.localSocketClosingList.filter (· != r) ++ [r] := rfl
  constructor
  case nodup =>
    have := k.nodup.filter (· != r)
    rw [l, cl, ← List.append_assoc, ← List.filter_append]
    grind
  case closing =>
    intro n
    have := k.closing n
    grind [sock_linger]

theorem act (w : s.WF) (k : s.Lists) : Act.Step s b s' → s'.Lists
  | .create h _ => k.create w h
  | .link hr hp ne .. => k.congr rfl rfl fun n => by grind [sock_link]
  | .attach hr hp ne .. => k.congr rfl rfl fun n => by grind [sock_attached]
  | .unlink hr hp cp .. => k.unlink w hr hp cp
  | .finish hr hp cp .. => (k.unlink w hr hp cp).destroy
  | .retire hr hp cp .. =>
    (k.unlink w hr hp cp).linger ((sock_unlink hr hp (w.ne_peer hr cp)).trans (if_pos rfl))
  | .release hr cp l => by
    have := (w.sound _ _ hr).closing
    exact k.congr rfl rfl fun n => by grind [sock_release]
  | .destroy .. | .drop .. => k.destroy
  | .linger hr .. => k.linger hr
  | .socket hr h => by
    have := h.preserves_closing
    refine k.congr rfl rfl fun n => ?_
    rw [sock_emit, sock_put hr]
    grind
  | .transport | .setWindow | .poll _ | .abort => { k with }
  | .other sockets l cl .. => k.congr l cl fun n => by simp [sock, sockets]

theorem initial : ({} : Looper).Lists where
  nodup := by simp
  closing r := by simp [sock]

end Lists

theorem Reachable.lists (h : Reachable P s) : s.Lists :=
  preserved_by_runs .initial h
    (fun _ _ _ w _ hs k => preserved_by_next w hs (fun _ _ _ w _ hs k => k.act w hs) k) .initial

end Looper

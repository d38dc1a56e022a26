import LibAdb.Machine.CloseAll

namespace Looper

variable {s s₁ s₂ : Looper} {r p n : Ref} {c d : ASocket} {t : Tid} {a : Action} {b : Act}

-- A packet from the transport is only taken for a socket that belongs to the transport.
def Addressed (s : Looper) : Action → Prop
  | .packet t p _ => ∀ r, s.addressee t p.toApacket = some r → s.belongs t r
  | _             => True

-- The client behind the socket asks its smart socket for the transport.
def Chooses (s : Looper) (a : Action) (r : Ref) (t : Tid) : Prop :=
  ∃ ss, (s.sock r).bind (·.peer) = some ss ∧ s.Selects a ss t

theorem WF.belongs_near (w : s.WF) (hr : s.sock n = some c) (h : s.Near r n) (hb : s.belongs t r) :
    s.belongs t n := by
  rcases h with h | h | h
  · exact h ▸ hb
  · exact w.belongs_peer h hb
  · exact absurd (Store.lt_next hr) (Nat.not_lt_of_le h)

theorem handlePacket_frame (w : s.WF) (ha : s.Addressed (.packet t m os))
    (hk : m.kind = some .okay ∨ m.kind = some .wrte ∨ m.kind = some .clse)
    (hr : s.sock r = some c) (hb : s.belongs t r = false) :
    (s.handlePacket t m.toApacket os).sock r = some c ∧
      s.SameLists (s.handlePacket t m.toApacket os) r := by
  have h : Acts (s.Serves (.packet t m os) (s.addressee t m.toApacket)) s
      (s.handlePacket t m.toApacket os) := by
    unfold handlePacket
    rw [if_neg (by simp [m.framed])]
    rcases hk with hk | hk | hk
    · simpa only [hk] using handleOkay_acts w hk rfl
    · simpa only [hk] using handleWrte_acts w hk
    · simpa only [hk] using handleClse_acts w hk
  rw [← hr]
  refine h.frame fun _ b hs hn => ?_
  have ⟨r', hr', near⟩ := hs.right r hn
  simp [w.belongs_near hr near (ha r' hr')] at hb

theorem Acks.addressee (h : s.Acks a r t m) :
    ∃ p os, a = .packet t p os ∧ s.addressee t p.toApacket = some r := by
  have ⟨p, os, c, ha, hk, ho, h₀, h₁, hf, hack, hr, hp⟩ := h
  refine ⟨p, os, ha, ?_⟩
  simpa [Looper.addressee, ho, h₁, hk, h₀, hack, hf, hr] using hp

-- Nothing connects the local socket `r` with the transport.
structure Foreign (s : Looper) (t : Tid) (r : Ref) : Prop where
  old  : r < s.sockets.next
  own  : ∀ c, s.sock r = some c → c.ops.isLocal ∧ c.transport ≠ some t
  peer : ∀ c p d, s.sock r = some c → c.peer = some p → s.sock p = some d → d.transport ≠ some t

namespace Foreign

theorem of_not_belongs (hr : s.sock r = some c) (l : c.ops.isLocal) (h : s.belongs t r = false) :
    s.Foreign t r := by
  have h := mt (belongs_iff (t := t) hr).mpr (by simp [h])
  simp only [not_or, not_exists, not_and] at h
  constructor
  case old => exact Store.lt_next hr
  case own =>
    intro c' hr'
    cases hr.symm.trans hr'
    exact ⟨l, h.left⟩
  case peer =>
    intro c' p d hr' cp hd
    cases hr.symm.trans hr'
    exact h.right p d cp hd

theorem not_belongs (f : s.Foreign t r) : ¬s.belongs t r := by
  cases hr : s.sock r
  case none => simp [belongs, hr]
  case some c =>
    rw [belongs_iff hr]
    rintro (h | ⟨p, d, cp, hd, h⟩)
    · exact (f.own c hr).right h
    · exact f.peer c p d hr cp hd h

theorem congr {s' : Looper} (f : s.Foreign t r) (next : s.sockets.next ≤ s'.sockets.next)
    (h : ∀ n c', s'.sock n = some c' → n < s.sockets.next → ∃ c, s.sock n = some c ∧
      c'.ops.isLocal = c.ops.isLocal ∧ c'.transport = c.transport ∧
      (c'.peer = none ∨ c'.peer = c.peer)) (w : s.WF) : s'.Foreign t r where
  old := Nat.lt_of_lt_of_le f.old next
  own c' hr := by
    have ⟨c, hc, ho, ht, _⟩ := h r c' hr f.old
    rw [ho, ht]
    exact f.own c hc
  peer c' p d' hr cp hd := by
    have ⟨c, hc, _, _, hp⟩ := h r c' hr f.old
    have hp : c.peer = some p := by grind
    have ⟨e, he, _⟩ := w.peer r c p hc hp
    have ⟨d, hd, _, ht, _⟩ := h p d' hd (Store.lt_next he)
    rw [ht]
    exact f.peer c p d hc hp hd

theorem transport (w₀ : s.WF) (f₀ : s.Foreign t r) (hC : ¬s.Chooses a r t) (w : s₁.WF)
    (f : s₁.Foreign t r) (hn : s₁.sock n = some c) (h : SocketAct.Step s₁ n c x es c')
    (hb : s.Allowed a s₁ (.socket n x))
    (hr : n = r ∨ (s₁.sock r).bind (·.peer) = some n) : c'.transport ≠ some t := by
  have hc : c.transport ≠ some t := by
    rcases hr with hr | hr
    · subst hr
      exact (f.own c hn).right
    · obtain ⟨e, he, ep⟩ := Option.bind_eq_some_iff.mp hr
      exact f.peer e n c he ep hn
  have symm (hr : (s₁.sock r).bind (·.peer) = some n) : c.peer = some r := by
    obtain ⟨e, he, ep⟩ := Option.bind_eq_some_iff.mp hr
    obtain ⟨c₁, hc₁, k⟩ := w.peer r e n he ep
    cases hn.symm.trans hc₁
    exact k.symm
  have unbound {t'} (cp : c.peer = none) (hb : s.belongs t' n ∨ s.sockets.next ≤ n) :
      some t' ≠ some t := by
    rcases hr with hr | hr
    · rintro ⟨⟩
      subst hr
      exact hb.elim f₀.not_belongs (Nat.not_le_of_lt f₀.old)
    · exact nomatch cp.symm.trans (symm hr)
  cases h
  case bind cp _ => exact unbound cp hb.left.belongs_or_new
  case opened cp _ _ _ => exact unbound cp (Opens.belongs_or_new hb)
  case accepted p d t' g l cp hd ho _ _ _ =>
    rcases hr with hr | hr
    · exact absurd hb.left (Nat.not_le_of_lt (hr ▸ f₀.old))
    · cases cp.symm.trans (symm hr)
      have := (f.own d hd).left
      simp [ho, SocketOps.isLocal] at this
  case switch t' data l =>
    rcases hr with hr | hr
    · subst hr
      have := (f.own c hn).left
      simp [l, SocketOps.isLocal] at this
    · intro ht
      cases ht
      obtain ⟨hs, hp⟩ := hb
      rw [hn, Option.bind_some, symm hr] at hp
      obtain ⟨e, he, ep⟩ := Option.bind_eq_some_iff.mp hp.symm
      obtain ⟨c₁, hc₁, k⟩ := w₀.peer n e r he ep
      exact hC ⟨n, by simp [hc₁, k.symm], hs⟩
  case receive data w b l hb _ =>
    obtain ⟨q, ws, g, hw, _⟩ := c.receive_spec 0 data w
    simpa [hw] using hc
  all_goals exact hc

theorem socket (w₀ : s.WF) (f₀ : s.Foreign t r) (hC : ¬s.Chooses a r t) (w : s₁.WF)
    (f : s₁.Foreign t r) (hn : s₁.sock n = some c) (h : SocketAct.Step s₁ n c x es c')
    (hb : s.Allowed a s₁ (.socket n x)) : ((s₁.put n c').emit es).Foreign t r := by
  have ht := transport w₀ f₀ hC w f hn h hb
  have sock (m) : ((s₁.put n c').emit es).sock m = if m = n then some c' else s₁.sock m :=
    sock_put hn
  have hp := h.preserves_peer
  have hl := h.preserves_kind.left
  have ⟨old, own, peer⟩ := f
  constructor
  case old => exact old
  case own =>
    intro e he
    rw [sock] at he
    split at he
    case isTrue hr =>
      cases he
      exact ⟨by grind, ht (.inl hr.symm)⟩
    case isFalse => exact own e he
  case peer =>
    intro e p d he ep hd
    have he' : (s₁.sock r).bind (·.peer) = some p := by
      rw [sock] at he
      split at he
      case isTrue hr =>
        cases he
        simp [hr, hn, ← hp, ep]
      case isFalse => simp [he, ep]
    rw [sock] at hd
    split at hd
    case isTrue hpn =>
      cases hd
      exact ht (.inr (hpn ▸ he'))
    case isFalse =>
      have ⟨e', hr, ep'⟩ := Option.bind_eq_some_iff.mp he'
      exact peer e' p d hr ep' hd

theorem act (w₀ : s.WF) (f₀ : s.Foreign t r) (hA : s.Addressed a) (hC : ¬s.Chooses a r t)
    (w : s₁.WF) (f : s₁.Foreign t r) (hb : s.Allowed a s₁ b) : Act.Step s₁ b s₂ → s₂.Foreign t r
  | .create h _ => by
    refine f.congr (Nat.le_succ _) (fun n c' hn hlt => ⟨c', ?_, rfl, rfl, .inr rfl⟩) w
    rwa [sock_create, if_neg (Nat.ne_of_lt hlt)] at hn
  | .link (r := n) (p := m) hr hp ne _ _ _ cp dp .. => by
    have sock (k) := sock_link (n := k) hr hp ne
    have hm : r ≠ m := Nat.ne_of_lt <| Nat.lt_of_lt_of_le f₀.old hb.left
    have hn : r = n → ∀ d, s₁.sock m = some d → d.transport = none := by
      rintro rfl
      exact hb.right.resolve_left (Nat.not_le_of_lt f₀.old)
    have ⟨old, own, peer⟩ := f
    exact ⟨old, by grind, by grind⟩
  | .attach (r := n) (p := m) (t := t') (n := g) hr hp ne _ _ _ cp dp _ dt _ => by
    have sock (k) := sock_attached (n := k) (m := g) hr hp ne
    have hm : r ≠ m := Nat.ne_of_lt <| Nat.lt_of_lt_of_le f₀.old hb.right.right.left
    have hn : r = n → t' ≠ t := by
      rintro rfl rfl
      have ⟨q, os, ha, hq⟩ := hb.left.addressee
      subst ha
      exact f₀.not_belongs (hA r hq)
    have ⟨old, own, peer⟩ := f
    exact ⟨old, by grind, by grind⟩
  | .unlink hr hp cp .. => by
    have sock (n) := sock_unlink (n := n) hr hp (w.ne_peer hr cp)
    refine f.congr (Nat.le_refl _) (fun n c' hn _ => ?_) w
    grind
  | .finish hr hp cp .. => by
    have sock (n) := sock_unlink (n := n) hr hp (w.ne_peer hr cp)
    refine f.congr (Nat.le_refl _) (fun n c' hn _ => ?_) w
    grind [sock_destroy]
  | .retire hr hp cp .. => by
    have sock (n) := sock_unlink (n := n) hr hp (w.ne_peer hr cp)
    have sock' (n) := sock_linger (n := n) ((sock _).trans (if_pos rfl))
    refine f.congr (Nat.le_refl _) (fun n c' hn _ => ?_) w
    grind
  | .release hr cp l => by
    refine f.congr (Nat.le_refl _) (fun n c' hn _ => ⟨c', ?_, rfl, rfl, .inr rfl⟩) w
    grind [sock_release]
  | .destroy hr cp l h | .drop hr cp l h => by
    refine f.congr (Nat.le_refl _) (fun n c' hn _ => ⟨c', ?_, rfl, rfl, .inr rfl⟩) w
    grind [sock_destroy]
  | .linger hr cp l h => by
    have sock (n) := sock_linger (n := n) hr
    refine f.congr (Nat.le_refl _) (fun n c' hn _ => ?_) w
    grind
  | .socket hr h => socket w₀ f₀ hC w f hr h hb
  | .transport | .setWindow | .poll _ | .abort => { f with }
  | .other sockets .. => by
    refine f.congr (Nat.le_of_eq (by rw [sockets])) (fun n c' hn _ => ⟨c', ?_, rfl, rfl, .inr rfl⟩) w
    rwa [sock, sockets] at hn

end Foreign

-- Nothing that was read from the socket is sent to the transport on the way from `s` to `s'`. The
-- packets that are sent for a socket without such data are `OKAY` and `CLSE`.
def Withholds (s : Looper) (t : Tid) (r : Ref) (s' : Looper) : Prop :=
  ∃ es, s'.log = s.log ++ es ∧
    ∀ m, .sent (some r) t m ∈ es → m.kind = some .okay ∨ m.kind = some .clse

namespace Withholds

theorem refl : s.Withholds t r s :=
  ⟨[], by simp, by simp⟩

theorem trans (h₁ : s.Withholds t r s₁) (h₂ : s₁.Withholds t r s₂) : s.Withholds t r s₂ := by
  have ⟨es₁, hl₁, he₁⟩ := h₁
  have ⟨es₂, hl₂, he₂⟩ := h₂
  refine ⟨es₁ ++ es₂, by simp [hl₂, hl₁], fun m hm => ?_⟩
  rcases List.mem_append.mp hm with hm | hm
  · exact he₁ m hm
  · exact he₂ m hm

theorem of_neutral (log : s₁.log = s.log ++ es) (n : ∀ e ∈ es, History.Neutral e) :
    s.Withholds t r s₁ :=
  ⟨es, log, fun m hm => .inr <| by simpa [History.Neutral] using n _ hm⟩

theorem of_log (log : s₁.log = s.log) : s.Withholds t r s₁ :=
  ⟨[], by simp [log], by simp⟩

theorem not_mem_receiveEffects : .sent q t m ∉ c.receiveEffects r data w := by
  unfold ASocket.receiveEffects ASocket.writevEffects
  grind

theorem socket (f₀ : s.Foreign t r) (f : s₁.Foreign t r) (hb : s.Allowed a s₁ (.socket n x))
    (hn : s₁.sock n = some c) (h : SocketAct.Step s₁ n c x es c') :
    s₁.Withholds t r ((s₁.put n c').emit es) := by
  refine ⟨es, rfl, fun m hm => ?_⟩
  have ha := h.about _ hm
  have hnr : n = r ∨ m.kind = some .clse := by
    simpa [History.subject, History.Neutral, eq_comm] using ha
  refine hnr.elim (fun hnr => ?_) .inr
  subst hnr
  cases h
  case opened =>
    simp at hm
    have hb := Opens.belongs_or_new (hm.left ▸ hb)
    exact absurd hb (not_or.mpr ⟨f₀.not_belongs, Nat.not_le_of_lt f₀.old⟩)
  case forward p d t' m' data l hp hd hr ht _ _ _ _ =>
    simp at hm
    exact absurd (hm.left ▸ ht) (f.peer c p d hn hp hd)
  case ready l n => exact .inr <| by simpa [History.Neutral] using n _ hm
  case accepted => exact absurd hb.left (Nat.not_le_of_lt f₀.old)
  case receive data w b l hb _ =>
    rcases List.mem_append.mp hm with hm | hm
    · exact absurd hm not_mem_receiveEffects
    · obtain ⟨_, _, he, hk⟩ := mem_ackEffects hm
      cases he
      exact .inl hk
  all_goals simp at hm

theorem act (f₀ : s.Foreign t r) (f : s₁.Foreign t r) (hb : s.Allowed a s₁ b) :
    Act.Step s₁ b s₂ → s₁.Withholds t r s₂
  | .socket hr h => socket f₀ f hb hr h
  | .destroy .. | .drop .. | .finish .. => ⟨[.destroyed _], rfl, by simp⟩
  | .attach .. => ⟨[.acked _ _], rfl, by simp⟩
  | .create .. | .link .. | .unlink .. | .retire .. | .release .. | .linger .. | .transport
  | .setWindow | .poll .. | .abort => of_log rfl
  | .other _ _ _ _ _ _ _ log n _ => of_neutral log n

end Withholds

def Separates (t : Tid) (r : Ref) (s : Looper) (a : Action) : Prop :=
  s.Addressed a ∧ ¬s.Chooses a r t

theorem Foreign.next (w : s.WF) (f : s.Foreign t r) (hs : Separates t r s a)
    (h : s.next a = some s₁) : s₁.Foreign t r ∧ s.Withholds t r s₁ := by
  refine preserved_by_next (J := fun s₁ => s₁.Foreign t r ∧ s.Withholds t r s₁) w h ?_ ⟨f, .refl⟩
  intro s₁ b s₂ w₁ hb hstep ⟨f₁, h₁⟩
  exact ⟨act w f hs.left hs.right w₁ f₁ hb hstep, h₁.trans (.act f f₁ hb hstep)⟩

theorem Foreign.runs (w : s.WF) (f : s.Foreign t r) (h : Runs (Separates t r) s s₁) :
    s₁.Foreign t r ∧ s.Withholds t r s₁ := by
  refine preserved_by_runs (J := fun s₁ => s₁.Foreign t r ∧ s.Withholds t r s₁) w h ?_ ⟨f, .refl⟩
  intro s₁ a s₂ w₁ ha hstep ⟨f₁, h₁⟩
  have ⟨f₂, h₂⟩ := f₁.next w₁ ha hstep
  exact ⟨f₂, h₁.trans h₂⟩

-- Packets from a device leave the sockets of other devices alone, and what is read from these is
-- never sent to it, as long as packets are taken only for the sockets of the device they come from.
theorem device_isolation (hs : Reachable (fun _ _ => True) s)
    (hk : m.kind = some .okay ∨ m.kind = some .wrte ∨ m.kind = some .clse)
    (h : s.next (.packet t m os) = some s₁) (ha : s.Addressed (.packet t m os))
    (hr : s.sock r = some c) (l : c.ops.isLocal) (hb : s.belongs t r = false) :
    s₁.sock r = some c ∧ s.SameLists s₁ r ∧
      ∀ s₂, Runs (Separates t r) s₁ s₂ → s.Withholds t r s₂ := by
  have w := hs.wf
  have f := Foreign.of_not_belongs hr l hb
  have step : s₁ = s.handlePacket t m.toApacket os := by
    simp only [next, step] at h
    grind
  have frame := step ▸ handlePacket_frame w ha hk hr hb
  refine ⟨frame.left, frame.right, fun s₂ hruns => ?_⟩
  have chooses : ¬s.Chooses (.packet t m os) r t := by
    rintro ⟨ss, _, d, os', request, ⟨_, _, _, ⟨_, ha, _⟩, _⟩, _⟩
    cases ha
  obtain ⟨f₁, h₁⟩ := f.next w ⟨ha, chooses⟩ h
  exact h₁.trans (f₁.runs (w.next h) hruns).right

theorem device_isolation_of_two_streams : ∃ s s₁ : Looper, ∃ c,
    s.next (.packet 1 (.ofCommand .okay 9 2 [] (by decide)) {}) = some s₁ ∧ s.sock 0 = some c ∧
    s₁.sock 0 = some c ∧ s.SameLists s₁ 0 ∧
    ∀ s₂, Runs (Separates 1 0) s₁ s₂ → s.Withholds 1 0 s₂ := by
  have run : (exec next {} [.packet 0 .connect {}, .packet 1 .connect {},
      .openService 0 (ascii "shell:"), .openService 1 (ascii "shell:")]).any fun s =>
        (s.sock 0).any (·.ops.isLocal) && !s.belongs 1 0 &&
        (s.next (.packet 1 (.ofCommand .okay 9 2 [] (by decide)) {})).isSome &&
        (s.addressee 1 (ReceivedPacket.ofCommand .okay 9 2 [] (by decide)).toApacket).all
          (s.belongs 1 ·) := by
    decide +kernel
  simp only [Bool.and_eq_true, Bool.not_eq_true', Option.any_eq_true,
    Option.isSome_iff_exists] at run
  have ⟨s, hs, ⟨⟨⟨c, hr, l⟩, hb⟩, s₁, h₁⟩, ha⟩ := run
  have addressed : s.Addressed (.packet 1 (.ofCommand .okay 9 2 [] (by decide)) {}) := by
    intro r hr
    simpa [hr] using ha
  exact ⟨s, s₁, c, h₁, hr, device_isolation (.of_exec hs) (.inl rfl) h₁ addressed hr l hb⟩

-- The code does not compare the transports when the socket has no peer yet: an `OKAY` from another
-- device is taken for a stream that waits for its own one, and its data goes to the wrong device.
theorem foreign_okay_diverts_stream : ∃ s s₁ s₂ : Looper, ∃ c,
    Reachable (fun _ _ => True) s ∧ s.sock 0 = some c ∧ c.ops.isLocal ∧ s.belongs 1 0 = false ∧
    s.next (.packet 1 (.ofCommand .okay 9 1 [] (by decide)) {}) = some s₁ ∧ s₁.sock 0 ≠ some c ∧
    Runs (fun _ _ => True) s₁ s₂ ∧
    ∃ m, .sent (some 0) 1 m ∈ s₂.log ∧ m.kind = some .wrte ∧ m.payload = [1, 2, 3] := by
  let sent : Apacket :=
    { Apacket.make .wrte 1 9 [1, 2, 3] with magic := Command.wrte.word ^^^ 0xffffffff }
  have run : (exec next {} [.packet 0 .connect {}, .packet 1 .connect {},
      .openService 0 (ascii "shell:")]).any fun s =>
        (s.sock 0).any (fun c => c.ops.isLocal && !s.belongs 1 0 &&
          (s.next (.packet 1 (.ofCommand .okay 9 1 [] (by decide)) {})).any fun s₁ =>
            s₁.sock 0 != some c && (exec next s₁ [.poll [(0, { input := true })],
              .dispatch { reads := [.data [1, 2, 3]] }]).any fun s₂ =>
                s₂.log.contains (.sent (some 0) 1 sent)) := by
    decide +kernel
  simp only [Bool.and_eq_true, Bool.not_eq_true', Option.any_eq_true, bne_iff_ne,
    List.contains_iff_mem] at run
  have ⟨s, hs, c, hr, ⟨l, hb⟩, s₁, h₁, hne, s₂, h₂, hm⟩ := run
  exact ⟨s, s₁, s₂, c, .of_exec hs, hr, l, hb, h₁, hne, .of_exec h₂, sent, hm, rfl, rfl⟩

end Looper

import LibAdb.Machine.Stream

-- When a stream may send: permission is kept in the read event of the socket's fd, which is armed
-- only while the stream may send.

namespace Looper

-- The device has allowed the socket to send a packet.
def MaySend (s : Looper) (r : Ref) : Prop :=
  ∃ c, s.sock r = some c ∧ (∀ x, c.availableSendBytes = some x → 0 < x) ∧
    (c.availableSendBytes = none → (s.history r).permitted)

-- Data for the device is read although the read event of the socket is not armed.
def Oversteps (s : Looper) (a : Action) (r : Ref) : Prop :=
  ∃ data, s.Reads a r data ∧ s.remotePeer r ∧ (s.sock r).all (!·.fdeRead)

-- An `OKAY` leaves a stream without credit, which is nevertheless going to be read: it is the first
-- one for the stream, or it takes credit away.
def Weakens (s : Looper) (a : Action) (r : Ref) : Prop :=
  ∃ t n c, s.Acks a r t n ∧ s.sock r = some c ∧ (c.peer = none ∨ c.fdeRead) ∧
    ¬(c.credited n s.delayedAckBytes).all (0 < ·)

def Heeds (r : Ref) (s : Looper) (a : Action) : Prop :=
  ¬s.Oversteps a r ∧ ¬s.Weakens a r

end Looper

-- A socket with a remote peer whose read event is armed may send.
def ASocket.Permitted (c : ASocket) (remote : Bool) (h : History) : Prop :=
  remote → c.fdeRead →
    (∀ x, c.availableSendBytes = some x → 0 < x) ∧ (c.availableSendBytes = none → h.permitted)

namespace ASocket.Permitted

variable {c : ASocket} {remote : Bool} {h : History}

theorem of_not_remote (hr : remote = false) : c.Permitted remote h :=
  fun hr' => absurd hr' (by simp [hr])

theorem of_not_armed (hf : c.fdeRead = false) : c.Permitted remote h :=
  fun _ hf' => absurd hf' (by simp [hf])

theorem spent (data : Bytes) : (c.spent data).Permitted remote h := by
  cases ha : c.availableSendBytes
  case none => exact of_not_armed (by simp [ASocket.spent, ha])
  case some x =>
    by_cases hx : x - (data.length : Int) ≤ 0
    case pos => exact of_not_armed (by simp [ASocket.spent, ha, hx])
    case neg =>
      intro _ _
      simp only [ASocket.spent, ha, Option.map_some, Option.some.injEq, reduceCtorEq,
        false_implies, and_true]
      omega

end ASocket.Permitted

namespace Looper

variable {s s₁ : Looper} {r : Ref} {a : Action} {b : Act} {c c' : ASocket}

theorem credited_of_not_weakens (hw : ¬s.Weakens a r) (ha : s.Acks a r t n)
    (hr : s.sock r = some c) (hc : c.peer = none ∨ c.fdeRead)
    (hx : c.credited n s.delayedAckBytes = some x) : 0 < x := by
  refine Classical.not_not.mp fun hn => hw ⟨t, n, c, ha, hr, hc, ?_⟩
  simpa [hx] using hn

theorem permitted_of_socket {b : SocketAct} (hb : s.Allowed a s₁ (.socket r b))
    (hw : ¬s.Weakens a r) (hr : s₁.sock r = some c) (h : SocketAct.Step s₁ r c b es c')
    (k : c.Permitted (s₁.remotePeer r) (s₁.history r)) :
    c'.Permitted (s₁.remotePeer r) ((s₁.history r).steps r es) := by
  have ⟨_, _, _, _, _, hh⟩ := h.history_outgoing (s₁.history r)
  have detached (hp : c.peer = none) : s₁.remotePeer r = false :=
    remotePeer_of_none (by simp [hr, hp])
  rw [hh]
  cases b
  case ready =>
    have .ready l _ := h
    intro hp _
    have ⟨c', p, d, hr', cp, hd, ho⟩ := remotePeer_iff.mp hp
    have ⟨hperm, hx⟩ := hb c' p d hr' cp hd ho
    cases hr.symm.trans hr'
    refine ⟨fun x h => ?_, fun _ => hperm⟩
    refine (hx x h).resolve_right fun ⟨t, n, c₀, ha, hr₀, cp₀, hc⟩ => ?_
    exact hw ⟨t, n, c₀, ha, hr₀, .inl cp₀, hc⟩
  case acked n =>
    have .acked l _ := h
    have ⟨⟨t, ha⟩, same⟩ := hb
    intro _ hf
    have hc : c.peer = none ∨ c.fdeRead := .inr hf
    exact ⟨fun x h => credited_of_not_weakens hw ha (same.sock ▸ hr) hc (same.window ▸ h), fun _ => rfl⟩
  case accepted =>
    have .accepted l _ _ _ _ hn _ := h
    exact fun _ _ => ⟨fun _ => ASocket.boundTo_pos hn, fun _ => rfl⟩
  case opened =>
    have .opened l _ hp .. := h
    exact .of_not_remote (detached hp)
  case bind =>
    have .bind l hp _ := h
    exact .of_not_remote (detached hp)
  case receive =>
    have ⟨_, _, _, _, hc, _⟩ := h.receive_eq
    rw [hc]
    exact k
  case forward =>
    cases h
    exact .spent _
  case relay =>
    have .relay l cp hp ho := h
    exact .of_not_remote (by simp [remotePeer_eq hr cp hp, ho])
  case discard =>
    have .discard l hp := h
    exact .of_not_remote (detached hp)
  case pause =>
    cases h
    exact .of_not_armed rfl
  all_goals
    cases h
    exact k

theorem permitted_of_moves (hb : s.Allowed a s₁ b) (hw : ¬s.Weakens a r) :
    s₁.Moves r b x y z → (∀ c, s₁.sock r = some c → c.Permitted (s₁.remotePeer r) (s₁.history r)) →
      ∀ c, x = some c → c.Permitted y z
  | .idle, k => k
  | .create .., _ | .unlink .., _ | .linger .., _ => fun _ _ => .of_not_remote rfl
  | .release .., _ | .destroy .., _ | .drop .., _ => by simp
  | .link (c := c) _ _ _ _ hf, _ => by
    intro c' hc hr hf'
    cases hc
    exact absurd hf' (by simp [hf hr])
  | .attach (c := c) hr cp _, _ => by
    intro c' hc _ _
    cases hc
    have ⟨ha, _, _, same⟩ := hb
    refine ⟨fun x h => ?_, fun _ => rfl⟩
    exact credited_of_not_weakens hw ha (same.sock ▸ hr) (.inl cp) (same.window ▸ h)
  | .socket hr h, k => by
    intro c' hc
    cases hc
    exact permitted_of_socket hb hw hr h (k _ hr)

theorem permitted_of_reachable (h : Reachable (Heeds r) s) (hr : s.sock r = some c) :
    c.Permitted (s.remotePeer r) (s.history r) := by
  refine preserved_by_runs (J := fun s => ∀ c, s.sock r = some c →
    c.Permitted (s.remotePeer r) (s.history r)) .initial h ?_ (fun _ hr => by cases hr) c hr
  intro s₁ a s₂ w hh hs k
  exact preserved_by_moves (K := fun x y z => ∀ c, x = some c → c.Permitted y z) r w hs
    (fun _ _ _ _ _ _ hb hm => permitted_of_moves hb hh.right hm) k

theorem writes_of_moves (hb : s.Allowed a s₁ b) :
    s₁.Moves r b x y z →
      ((s₁.history r).writes = (s.history r).writes ∨
        (s₁.history r).writes = (s.history r).writes + 1 ∧ ∃ data, s.Reads a r data ∧ s.remotePeer r) →
      z.writes = (s.history r).writes ∨
        z.writes = (s.history r).writes + 1 ∧ ∃ data, s.Reads a r data ∧ s.remotePeer r
  | .idle, k | .attach .., k | .link .., k | .unlink .., k | .release .., k | .destroy .., k
  | .drop .., k | .linger .., k => k
  | .create _ hh _, k => hh ▸ k
  | .socket hr h, k => by
    rename_i b _ _
    have ⟨_, _, _, _, _, hh⟩ := h.history_outgoing (s₁.history r)
    rw [hh]
    cases b
    case forward t data =>
      have ⟨hd, hp, hn⟩ := hb
      exact .inr ⟨congrArg (· + 1) hn, data, hd, hp⟩
    all_goals exact k

theorem maySend_of_reads (h : Reachable (Heeds r) s) (hn : ¬s.Oversteps a r)
    (hd : s.Reads a r data) (hp : s.remotePeer r) : s.MaySend r := by
  have ⟨c, _, _, ⟨_, _, _, _, hr, _⟩, _⟩ := hd
  have hf : c.fdeRead := by
    refine Classical.not_not.mp fun hf => hn ⟨data, hd, hp, ?_⟩
    simpa [hr] using hf
  exact ⟨c, hr, permitted_of_reachable h hr hp hf⟩

theorem wrte_only_when_permitted (h : Reachable (Heeds r) s) (hh : Heeds r s a)
    (hs : s.next a = some s₁) : (s₁.history r).writes = (s.history r).writes ∨
      (s₁.history r).writes = (s.history r).writes + 1 ∧ s.MaySend r := by
  have writes := preserved_by_moves (K := fun _ _ z => z.writes = (s.history r).writes ∨
    z.writes = (s.history r).writes + 1 ∧ ∃ data, s.Reads a r data ∧ s.remotePeer r) r h.wf hs
    (fun _ _ _ _ _ _ hb hm => writes_of_moves hb hm) (.inl rfl)
  rcases writes with hw | ⟨hw, data, hd, hp⟩
  · exact .inl hw
  · exact .inr ⟨hw, maySend_of_reads h hh.left hd hp⟩

def isHeeded (s : Looper) : Action → Bool
  | .packet _ _ _ => (s.sock 0).all (·.availableSendBytes.isNone)
  | .dispatch _   => (s.sock 0).all (·.fdeRead)
  | _             => true

theorem heeds_of_isHeeded (s : Looper) (a : Action) (h : isHeeded s a) : Heeds 0 s a := by
  constructor
  case left =>
    rintro ⟨_, ⟨_, _, _, ⟨_, ha, _, _, hr, _⟩, _⟩, _, hf⟩
    simp_all [isHeeded]
  case right =>
    rintro ⟨_, _, c, ⟨_, _, _, ha, _⟩, hr, _, hw⟩
    have hc : c.availableSendBytes = none := by simpa [isHeeded, ha, hr] using h
    simp [ASocket.credited, hc] at hw

theorem wrte_only_when_permitted_by_okay : ∃ s s₁ : Looper,
    s.next (.dispatch { reads := [.data [1, 2, 3]] }) = some s₁ ∧ (s₁.history 0).writes = 1 ∧
    ((s₁.history 0).writes = (s.history 0).writes ∨
      (s₁.history 0).writes = (s.history 0).writes + 1 ∧ s.MaySend 0) := by
  have ⟨s, hs, hh, s₁, h₁, hw⟩ : ∃ s, Reachable (Heeds 0) s ∧
      isHeeded s (.dispatch { reads := [.data [1, 2, 3]] }) ∧
      ∃ s₁ ∈ s.next (.dispatch { reads := [.data [1, 2, 3]] }), (s₁.history 0).writes = 1 :=
    Reach.exists_of_guarded heeds_of_isHeeded [.packet 0 .connect {},
      .openService 0 (ascii "shell:"), .packet 0 (.ofCommand .okay 9 1 [] (by decide)) {},
      .poll [(0, { input := true })]] (by decide +kernel)
  exact ⟨s, s₁, h₁, hw, wrte_only_when_permitted hs (heeds_of_isHeeded s _ hh) h₁⟩

-- A stream that the device opened is ready at once and sends its first packet without an `OKAY`. A
-- hang-up is handled like a read event that was asked for, so that a packet is also sent between a
-- `WRTE` and the `OKAY` for it.
theorem wrte_without_okay :
    (∃ s s₁ : Looper, ∃ c, Reachable (fun _ _ => True) s ∧
      s.next (.dispatch { reads := [.data [1, 2, 3]] }) = some s₁ ∧ s.sock 1 = some c ∧
      c.availableSendBytes = none ∧ (s.history 1).acks = [] ∧
      (s₁.history 1).sent = [1, 2, 3]) ∧
    ∃ s s₁ : Looper, ∃ c, Reachable (fun _ _ => True) s ∧
      s.next (.dispatch { reads := [.data [4, 5], .data []] }) = some s₁ ∧ s.sock 0 = some c ∧
      c.availableSendBytes = none ∧ (s.history 0).permitted = false ∧
      (s.history 0).sent = [1, 2, 3] ∧ (s₁.history 0).sent = [1, 2, 3, 4, 5] := by
  have run₁ : (exec next {} [.packet 0 .connect {},
      .openService 0 (ascii "reverse:forward:tcp:1;tcp:2"),
      .packet 0 (.ofCommand .open 9 0 (ascii "tcp:2") (by decide)) {},
      .poll [(1, { input := true })]]).any fun s =>
        (s.next (.dispatch { reads := [.data [1, 2, 3]] })).any fun s₁ =>
          (s.sock 1).any (·.availableSendBytes = none) && (s.history 1).acks = [] &&
          (s₁.history 1).sent = [1, 2, 3] := by
    decide +kernel
  have run₂ : (exec next {} [.packet 0 .connect {}, .openService 0 (ascii "shell:"),
      .packet 0 (.ofCommand .okay 9 1 [] (by decide)) {}, .poll [(0, { input := true })],
      .dispatch { reads := [.data [1, 2, 3]] }, .poll [(0, { hup := true })]]).any fun s =>
        (s.next (.dispatch { reads := [.data [4, 5], .data []] })).any fun s₁ =>
          (s.sock 0).any (·.availableSendBytes = none) && !(s.history 0).permitted &&
          (s.history 0).sent = [1, 2, 3] && (s₁.history 0).sent = [1, 2, 3, 4, 5] := by
    decide +kernel
  simp only [Bool.and_eq_true, Bool.not_eq_true', Option.any_eq_true, decide_eq_true_eq] at run₁ run₂
  have ⟨s, hs, s₁, h₁, ⟨⟨c, hr, hc⟩, ha⟩, hw⟩ := run₁
  have ⟨s', hs', s₁', h₁', ⟨⟨⟨c', hr', hc'⟩, hp'⟩, hw'⟩, hw₁'⟩ := run₂
  exact ⟨⟨s, s₁, c, .of_exec hs, h₁, hr, hc, ha, hw⟩, s', s₁', c', .of_exec hs', h₁', hr', hc', hp', hw',
    hw₁'⟩

end Looper

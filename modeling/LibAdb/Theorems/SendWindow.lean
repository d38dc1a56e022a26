import LibAdb.Theorems.Credit

-- The credit of a stream is never more than the window.

namespace ASocket

variable {c : ASocket} {cap x : Int}

def CreditBelow (cap : Int) (c : ASocket) : Prop :=
  ∀ x, c.availableSendBytes = some x → x ≤ cap

theorem CreditBelow.credited {window : UInt64} (h : c.CreditBelow window.toNat)
    (hx : c.credited n window = some x) : x ≤ window.toNat := by
  unfold ASocket.credited at hx
  split at hx
  case h_1 =>
    cases hx
    have hw : window.toInt64.toInt ≤ window.toNat := by
      rw [Looper.toInt_window]
      split <;> omega
    exact (Window.refill_le _ _ _).trans hw
  case h_2 => exact h x hx

end ASocket

namespace Looper

variable {s s₁ s' : Looper} {r : Ref} {c c' : ASocket} {a : Action} {b : Act} {t : Tid}

-- No stream may send more than the window.
def Capped (s : Looper) : Prop :=
  ∀ r c, s.sock r = some c → c.CreditBelow s.delayedAckBytes.toNat

-- A device opens a stream with more credit than the window, or the window is set to less than a
-- stream may send.
def Overgrants (s : Looper) : Action → Prop
  | .packet t p os        =>
    s.accepts t p.toApacket os ∧ s.delayedAckBytes.toNat < p.arg1.toNat
  | .setDelayedAckBytes w =>
    ∃ r c, s.sock r = some c ∧ ¬c.CreditBelow (max w (64 * 1024)).toNat
  | _                     => False

theorem next_preserves_window (w : s.WF) (h : s.next a = some s')
    (ha : ∀ w, a ≠ .setDelayedAckBytes w) : s'.delayedAckBytes = s.delayedAckBytes := by
  refine preserved_by_next (J := fun s₁ => s₁.delayedAckBytes = s.delayedAckBytes) w h ?_ rfl
  intro s₁ b s₂ _ hb hs h₁
  refine (hs.frame.window ?_).trans h₁
  rintro x rfl
  have ⟨w', h, _⟩ := hb
  exact ha w' h

theorem creditBelow_of_socket {b : SocketAct} (ha : ¬s.Overgrants a)
    (hb : s.Allowed a s₁ (.socket r b)) (h : SocketAct.Step s₁ r c b es c')
    (k : c.CreditBelow s.delayedAckBytes.toNat) : c'.CreditBelow s.delayedAckBytes.toNat := by
  intro x hx
  cases h
  case acked =>
    obtain ⟨_, same⟩ := hb
    rw [← same.window] at k ⊢
    exact k.credited hx
  case accepted p d t n l hp hd hr ho hn _ =>
    obtain ⟨_, _, m, os, hm, accepts, harg⟩ := hb
    have : ¬s.delayedAckBytes.toNat < m.arg1.toNat := fun h => ha (by subst hm; exact ⟨accepts, h⟩)
    simp only [ASocket.boundTo] at hx
    grind
  case opened =>
    simp only [ASocket.boundTo] at hx
    grind
  case receive data w f l hf _ =>
    obtain ⟨q, ws, g, hw, _⟩ := c.receive_spec r data w
    exact k x (by simpa [hw] using hx)
  case forward =>
    obtain ⟨y, hy, hxy⟩ := Option.map_eq_some_iff.mp hx
    have := k y hy
    omega
  case relay =>
    obtain ⟨y, hy, hxy⟩ := Option.map_eq_some_iff.mp hx
    have := k y hy
    omega
  all_goals exact k x hx

theorem creditBelow_of_moves (ha : ¬s.Overgrants a) (hb : s.Allowed a s₁ b)
    (m : s₁.Moves r b x y z) (k : ∀ c, s₁.sock r = some c → c.CreditBelow s.delayedAckBytes.toNat) :
    ∀ c, x = some c → c.CreditBelow s.delayedAckBytes.toNat := by
  intro c' hc
  cases m
  case idle => exact k c' hc
  case create h =>
    cases hc
    intro x hx
    cases h.credit.symm.trans hx
  case attach c _ _ _ hr _ _ =>
    cases hc
    intro x hx
    have ⟨_, _, _, same⟩ := hb
    have := k c hr
    rw [← same.window] at this ⊢
    exact this.credited hx
  case socket c _ _ c'' hr h =>
    cases hc
    exact creditBelow_of_socket ha hb h (k c hr)
  case link c _ hr _ _ _ _ | unlink c hr _ | linger c hr =>
    cases hc
    exact k c hr
  case release | destroy | drop => cases hc

theorem acceptOpen_not_capped (h : s.accepts t p os) (hn : s.delayedAckBytes.toNat < p.arg1.toNat) :
    ∃ r c, (s.acceptOpen t p).sock r = some c ∧ ¬c.CreditBelow s.delayedAckBytes.toNat := by
  have h₀ : p.arg0 ≠ 0 := by simp_all [accepts]
  have hd : (s.transports t).delayedAck := by
    have : p.arg1 ≠ 0 := by
      rintro h
      simp [h] at hn
    simp_all [accepts]
  obtain ⟨c, hr, hc⟩ := sock_acceptOpen (s := s) (t := t) h₀
  rw [hd, if_pos rfl] at hc
  refine ⟨_, c, hr, fun k => ?_⟩
  have := k _ hc
  omega

theorem Capped.next_iff (w : s.WF) (k : s.Capped) (h : s.next a = some s') :
    s'.Capped ↔ ¬s.Overgrants a := by
  by_cases hw : ∃ w, a = .setDelayedAckBytes w
  case pos =>
    obtain ⟨w', rfl⟩ := hw
    have hs' : s' = { s with delayedAckBytes := max w' (64 * 1024) } := by
      simp only [next, step] at h
      grind
    subst hs'
    constructor
    case mp =>
      rintro k' ⟨r, c, hr, hn⟩
      exact hn (k' r c hr)
    case mpr => exact fun hn r c hr => Classical.byContradiction fun hc => hn ⟨r, c, hr, hc⟩
  case neg =>
    have hwin : s'.delayedAckBytes = s.delayedAckBytes :=
      next_preserves_window w h fun w' hw' => hw ⟨w', hw'⟩
    constructor
    case mp =>
      intro k' ha
      cases a <;> simp only [Overgrants] at ha
      case packet t p os =>
        have hs' : s' = s.acceptOpen t p.toApacket := by
          rw [← handlePacket_of_accepts ha.left]
          simp only [next, step] at h
          grind
        obtain ⟨r, c, hr, hc⟩ := acceptOpen_not_capped ha.left ha.right
        exact hc (hwin ▸ k' r c (hs' ▸ hr))
      case setDelayedAckBytes w' => exact hw ⟨w', rfl⟩
    case mpr =>
      intro ha r
      rw [hwin]
      exact preserved_by_moves (K := fun x _ _ => ∀ c, x = some c →
        c.CreditBelow s.delayedAckBytes.toNat) r w h
        (fun _ _ _ _ _ _ hb m k => creditBelow_of_moves ha hb m k) (k r)

theorem Capped.runs (h : Reachable (fun s a => ¬s.Overgrants a) s) : s.Capped :=
  preserved_by_runs .initial h (fun _ _ _ w ha hs k => (k.next_iff w hs).mpr ha)
    fun r c hr => by cases hr

theorem send_window_capped (h : Reachable (fun s a => ¬s.Overgrants a) s) :
    s.Capped ∧ ∀ a s', s.next a = some s' → (s'.Capped ↔ ¬s.Overgrants a) :=
  have k := Capped.runs h
  ⟨k, fun _ _ hs => k.next_iff h.wf hs⟩

def isModest (s : Looper) (a : Action) : Bool :=
  match a with
  | .packet t p os   => !(s.accepts t p.toApacket os && s.delayedAckBytes.toNat < p.arg1.toNat)
  | .openService _ _ => true
  | _                => false

theorem not_overgrants_of_isModest (s : Looper) (a : Action) (h : isModest s a) : ¬s.Overgrants a := by
  cases a
  case packet t p os => simpa [isModest, Overgrants, imp_iff_not_or] using h
  all_goals simp_all [isModest, Overgrants]

-- The device opens a stream with a credit of 8 bytes, which the next `OKAY` would raise to 12.
theorem send_window_capped_for_small_grant : ∃ s : Looper,
    (s.sock 1).any (·.availableSendBytes = some 8) ∧ s.Capped ∧
    ∀ s', s.next (.packet 0 (.ofCommand .okay 7 2 [4, 0, 0, 0] (by decide)) {}) = some s' →
      s'.Capped := by
  have ⟨s, hs, credit, hm⟩ : ∃ s, Reachable (fun s a => ¬s.Overgrants a) s ∧
      (s.sock 1).any (·.availableSendBytes = some 8) ∧
      isModest s (.packet 0 (.ofCommand .okay 7 2 [4, 0, 0, 0] (by decide)) {}) :=
    Reach.exists_of_guarded not_overgrants_of_isModest [.packet 0 .connectDelayed {},
      .openService 0 (ascii "reverse:forward:tcp:1;tcp:2"),
      .packet 0 (.ofCommand .open 7 8 (ascii "tcp:2") (by decide)) {}] (by decide +kernel)
  have ⟨capped, step⟩ := send_window_capped hs
  exact ⟨s, credit, capped, fun s' h => (step _ s' h).mpr (not_overgrants_of_isModest _ _ hm)⟩

-- The device opens a stream with a credit of 2^32 - 1 bytes.
theorem open_exceeds_send_window : ∃ s : Looper, ∃ c, Reachable (fun _ _ => True) s ∧
    s.delayedAckBytes = initialDelayedAckBytes ∧ s.sock 1 = some c ∧
    c.availableSendBytes = some 4294967295 ∧ ¬s.Capped := by
  have ⟨s, hs, hw, c, hr, hc⟩ : ∃ s, Reachable (fun _ _ => True) s ∧
      s.delayedAckBytes = initialDelayedAckBytes ∧
      ∃ c ∈ s.sock 1, c.availableSendBytes = some 4294967295 :=
    Reach.exists_of_exec [.packet 0 .connectDelayed {},
      .openService 0 (ascii "reverse:forward:tcp:1;tcp:2"),
      .packet 0 (.ofCommand .open 7 0xffffffff (ascii "tcp:2") (by decide)) {}] (by decide +kernel)
  refine ⟨s, c, hs, hw, hr, hc, fun k => ?_⟩
  have := k 1 c hr _ hc
  rw [hw] at this
  exact absurd this (by decide)

end Looper

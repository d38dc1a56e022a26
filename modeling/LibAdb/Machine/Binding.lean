import LibAdb.Machine.CloseAll
import LibAdb.Machine.Stream

-- How local sockets get bound to a transport.

theorem SocketAct.Step.transport {b : SocketAct} (h : SocketAct.Step s r c b es c')
    (l : c.ops.isLocal) : c'.transport = c.transport ∨
      ∃ t, c'.transport = some t ∧ (b = .opened t ∨ b = .bind t ∨ ∃ n, b = .accepted t n) := by
  cases h
  case accepted n _ _ _ _ _ _ _ => exact .inr ⟨_, rfl, .inr (.inr ⟨n, rfl⟩)⟩
  case opened => exact .inr ⟨_, rfl, .inl rfl⟩
  case bind => exact .inr ⟨_, rfl, .inr (.inl rfl)⟩
  case receive data w f _ _ _ =>
    have ⟨q, ws, g, hw, _⟩ := c.receive_spec r data w
    exact .inl (by simp [hw])
  case switch hl => simp [hl, SocketOps.isLocal] at l
  all_goals exact .inl rfl

namespace Looper

variable {s s' s₁ : Looper} {r : Ref} {c c' : ASocket} {t : Tid} {a : Action} {b : Act}

def Adopts (s : Looper) (a : Action) (t : Tid) : Prop :=
  connectionStateIsOnline (s.transports t).connectionState ∨
    (∃ p os, a = .packet t p os ∧ (s.transports t).online) ∨ ∃ service, a = .openService t service

theorem Opens.adopts (h : s.Opens a r t) : s.Adopts a t :=
  h.imp And.right fun h => .inr h.right

theorem adopts_of_socket {b : SocketAct} (hb : s.Allowed a s₁ (.socket r b))
    (h : b = .opened t ∨ b = .bind t ∨ ∃ n, b = .accepted t n) : s.Adopts a t := by
  rcases h with rfl | rfl | ⟨n, rfl⟩
  · exact Opens.adopts hb
  · exact hb.left.adopts
  · have ⟨_, _, p, os, ha, accepts, _⟩ := hb
    refine .inr <| .inl ⟨p, os, ha, ?_⟩
    grind [Looper.accepts]

def HeldBefore (s : Looper) (t : Tid) (r : Ref) (c' : ASocket) : Prop :=
  ∃ c, s.sock r = some c ∧ c.ops.isLocal ∧ c.transport = some t ∧
    (c'.closing = false → c.closing = false)

theorem held_of_act (ha : ¬s.Adopts a t) (w : s₁.WF) (hb : s.Allowed a s₁ b)
    (h : Act.Step s₁ b s') (k : ∀ c, s₁.sock r = some c → c.ops.isLocal → c.transport = some t →
      s.HeldBefore t r c) (hr : s'.sock r = some c') (l : c'.ops.isLocal)
    (ht : c'.transport = some t) : s.HeldBefore t r c' := by
  have m := h.moves w (r := r)
  generalize s'.remotePeer r = y, s'.history r = z, hx : s'.sock r = x at m
  rw [hr] at hx
  cases m
  case idle => exact k c' hx.symm l ht
  case create f =>
    cases hx
    cases (f.unbound l).symm.trans ht
  case socket c x es c'' hc hs =>
    cases hx
    have lc : c.ops.isLocal := hs.preserves_kind.left.symm.trans l
    rcases hs.transport lc with he | ⟨t', he, hx⟩
    · have ⟨c₀, hc₀, l₀, ht₀, o₀⟩ := k c hc lc (he ▸ ht)
      exact ⟨c₀, hc₀, l₀, ht₀, hs.preserves_closing ▸ o₀⟩
    · cases he.symm.trans ht
      exact absurd (adopts_of_socket hb hx) ha
  case linger c hc =>
    cases hx
    have ⟨c₀, hc₀, l₀, ht₀, _⟩ := k c hc l ht
    exact ⟨c₀, hc₀, l₀, ht₀, nofun⟩
  case link c _ hc _ _ _ _ | attach c _ _ _ hc _ _ | unlink c hc _ =>
    cases hx
    exact k c hc l ht
  case release | destroy | drop => cases hx

theorem held_of_next (w : s.WF) (h : s.next a = some s') (ha : ¬s.Adopts a t)
    (hr : s'.sock r = some c') (l : c'.ops.isLocal) (ht : c'.transport = some t) :
    s.HeldBefore t r c' := by
  refine preserved_by_next (J := fun s' => ∀ c, s'.sock r = some c → c.ops.isLocal →
    c.transport = some t → s.HeldBefore t r c) w h ?_ ?_ c' hr l ht
  · exact fun s₁ b s₂ w₁ hb hs k c hr l ht => held_of_act ha w₁ hb hs k hr l ht
  · exact fun c hr l ht => ⟨c, hr, l, ht, id⟩

end Looper

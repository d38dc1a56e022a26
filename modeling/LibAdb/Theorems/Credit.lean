import Mathlib.Algebra.Order.Group.Int
import LibAdb.Library.Window
import LibAdb.Machine.Stream

-- The credit of a stream with delayed acknowledgements.

theorem ASocket.creditAfter_eq :
    creditAfter available n window = Window.refill window.toInt64.toInt available n :=
  rfl

namespace History

def acknowledged (h : History) : Int :=
  (h.acks.tail.map (·.getD 0)).sum

-- A stream that waits for its first `OKAY` has neither a remote peer nor credit.
def Waits (h : History) (x : Option ASocket) (remote : Bool) : Prop :=
  h.opened → h.acks = [] →
    remote = false ∧ h.sent = [] ∧ ∀ c ∈ x, ∀ n ∈ c.availableSendBytes, n = 0

-- The credit and the data under way add up to the first grant, which the window may have cut.
def Balanced (h : History) (window : UInt64) (available : Option Int) : Prop :=
  ∀ n g rest, available = some n → h.opened → h.acks = some g :: rest →
    Window.Conserved (min g window.toInt64.toInt) n h.sent.length h.acknowledged

end History

namespace Looper

-- The window has the given size, and the device does not acknowledge more than was sent.
def Steady (r : Ref) (window : UInt64) (s : Looper) (a : Action) : Prop :=
  s.delayedAckBytes = window ∧ ∀ t n, s.Acks a r t (some n) → (s.history r).acks ≠ [] →
    (s.history r).acknowledged + n ≤ (s.history r).sent.length

end Looper

namespace History.Waits

variable {h : History} {x : Option ASocket} {remote : Bool}

theorem of_not_opened (ho : h.opened = false) : h.Waits x remote :=
  fun ho' => absurd ho' (Bool.eq_false_iff.mp ho)

theorem of_acks (ha : h.acks ≠ []) : h.Waits x remote :=
  fun _ ha' => absurd ha' ha

end History.Waits

namespace History.Balanced

variable {h : History} {c : ASocket} {window : UInt64} {available : Option Int}

theorem of_not_opened (ho : h.opened = false) : h.Balanced window available :=
  fun _ _ _ _ ho' => absurd ho' (Bool.eq_false_iff.mp ho)

theorem of_no_acks (ha : h.acks = []) : h.Balanced window available :=
  fun _ _ _ _ _ ha' => nomatch ha.symm.trans ha'

theorem send (k : h.Balanced window available) (data : Bytes) :
    { h with
      read      := h.read ++ data
      sent      := h.sent ++ data
      writes    := h.writes + 1
      permitted := false }.Balanced window (available.map (· - (data.length : Int))) := by
  intro n g rest hn ho ha
  have ⟨m, hm, hn⟩ := Option.map_eq_some_iff.mp hn
  have conserved := (k m g rest hm ho ha).send (n := (data.length : Int))
  simp only [List.length_append, Nat.cast_add]
  exact hn ▸ conserved

theorem ack (k : h.Balanced window c.availableSendBytes) (hw : h.Waits (some c) remote)
    (honest : ∀ n, m = some n → h.acks ≠ [] → h.acknowledged + n ≤ h.sent.length) :
    (h.record (.acked r m)).Balanced window (c.credited m window) := by
  intro n g rest hn ho ha
  cases hacks : h.acks
  case nil =>
    obtain ⟨_, hs, hx⟩ := hw ho hacks
    obtain ⟨hm, hrest⟩ : m = some g ∧ rest = [] := by simpa [record, hacks, eq_comm] using ha
    subst hm hrest
    cases hc : c.availableSendBytes
    case none => simp [ASocket.credited, hc] at hn
    case some x =>
      have hx : x = 0 := hx c rfl x hc
      have hn : ASocket.creditAfter x g window = n := by simpa [ASocket.credited, hc] using hn
      rw [← hn, hx, ASocket.creditAfter_eq]
      simpa [acknowledged, record, hs, hacks] using Window.Conserved.grant window.toInt64.toInt g
  case cons first later =>
    obtain ⟨hf, hrest⟩ : first = some g ∧ rest = later ++ [m] := by
      simpa [record, hacks, eq_comm] using ha
    subst hf hrest
    have sum : (h.record (.acked r m)).acknowledged = h.acknowledged + m.getD 0 := by
      simp [acknowledged, record, hacks]
    rw [sum]
    cases hm : m
    case none =>
      rw [hm] at hn
      have hc : c.availableSendBytes = some n := by
        unfold ASocket.credited at hn
        grind
      simpa [record] using k n g later hc ho hacks
    case some b =>
      cases hc : c.availableSendBytes
      case none => simp [ASocket.credited, hc] at hn
      case some x =>
        have hn : ASocket.creditAfter x b window = n := by
          simpa [ASocket.credited, hc, hm] using hn
        rw [← hn]
        exact (k x g later hc ho hacks).refill (min_le_right ..) (honest b hm (by simp [hacks]))

end History.Balanced

namespace Looper

variable {s s₀ s₁ : Looper} {r : Ref} {a : Action} {b : Act} {c c' : ASocket} {window : UInt64}

theorem waits_of_socket {b : SocketAct} (w : s.WF) (hr : s.sock r = some c)
    (h : SocketAct.Step s r c b es c') (k : (s.history r).Waits (some c) (s.remotePeer r)) :
    ((s.history r).steps r es).Waits (some c') (s.remotePeer r) := by
  have ⟨_, _, _, _, _, hh⟩ := h.history_outgoing (s.history r)
  rw [hh]
  cases b
  case acked => exact .of_acks (List.append_ne_nil_of_right_ne_nil _ (List.cons_ne_nil _ _))
  case accepted =>
    have .accepted _ _ _ _ hn .. := h
    exact .of_not_opened hn
  case opened =>
    have .opened _ _ hp .. := h
    intro _ _
    refine ⟨remotePeer_of_none (by simp [hr, hp]), rfl, ?_⟩
    unfold ASocket.boundTo
    split <;> simp
  case forward =>
    have .forward _ hp hd ho .. := h
    intro h₁ h₂
    have hf := (k h₁ h₂).left
    simp [remotePeer_eq hr hp hd, ho] at hf
  case relay =>
    have .relay _ hp hd ho := h
    intro h₁ _
    have ⟨_, hd', link⟩ := w.peer r c _ hr hp
    cases hd.symm.trans hd'
    exact absurd (link.device (.inl h₁)) ho
  case receive =>
    have ⟨_, _, _, _, hc, _⟩ := h.receive_eq
    intro h₁ h₂
    have ⟨hp, hs, hx⟩ := k h₁ h₂
    exact ⟨hp, hs, by simpa [hc] using hx⟩
  all_goals
    cases h
    intro h₁ h₂
    have ⟨hp, hs, hx⟩ := k h₁ h₂
    exact ⟨hp, hs, by simpa using hx⟩

theorem waits_of_moves (w : s.WF) : s.Moves r b x y z →
    (s.history r).Waits (s.sock r) (s.remotePeer r) → z.Waits x y
  | .idle, k => k
  | .create .., _ => .of_not_opened rfl
  | .link _ _ ho .., _ => .of_not_opened ho
  | .attach .., _ => .of_acks (List.append_ne_nil_of_right_ne_nil _ (List.cons_ne_nil _ _))
  | .unlink hr _, k | .linger hr, k => fun h₁ h₂ => by
    have ⟨_, hs, hx⟩ := k h₁ h₂
    exact ⟨rfl, hs, by simpa [hr] using hx⟩
  | .release .., k | .destroy .., k | .drop .., k =>
    fun h₁ h₂ => ⟨rfl, (k h₁ h₂).right.left, by simp⟩
  | .socket hr h, k => waits_of_socket w hr h (hr ▸ k)

theorem waits_of_reachable (h : Reachable P s) :
    (s.history r).Waits (s.sock r) (s.remotePeer r) := by
  refine preserved_by_runs (J := fun s => (s.history r).Waits (s.sock r) (s.remotePeer r))
    .initial h ?_ nofun
  intro _ _ _ w _ hs
  exact preserved_by_moves (K := fun x y z => z.Waits x y) r w hs
    fun _ _ _ _ _ w₁ _ hm => waits_of_moves w₁ hm

theorem balanced_of_ack (hs : Steady r window s a) (ha : s.Acks a r t m)
    (same : s.SameCredit s₁ r) (hw : (s₁.history r).Waits (some c) remote)
    (k : (s₁.history r).Balanced window c.availableSendBytes) :
    ((s₁.history r).record (.acked r m)).Balanced window (c.credited m s₁.delayedAckBytes) := by
  rw [same.window, hs.left]
  refine k.ack hw fun n hm hne => ?_
  rw [same.history] at hne ⊢
  exact hs.right t n (hm ▸ ha) hne

theorem balanced_of_socket {b : SocketAct} (w : s₁.WF) (hb : s.Allowed a s₁ (.socket r b))
    (hs : Steady r window s a) (hr : s₁.sock r = some c) (h : SocketAct.Step s₁ r c b es c')
    (hw : (s₁.history r).Waits (some c) (s₁.remotePeer r))
    (k : (s₁.history r).Balanced window c.availableSendBytes) :
    ((s₁.history r).steps r es).Balanced window c'.availableSendBytes := by
  have ⟨_, _, _, _, _, hh⟩ := h.history_outgoing (s₁.history r)
  rw [hh]
  cases b
  case acked =>
    have .acked _ _ := h
    have ⟨⟨t, ha⟩, same⟩ := hb
    exact balanced_of_ack hs ha same hw k
  case accepted =>
    have .accepted _ _ _ _ hn .. := h
    exact .of_not_opened hn
  case opened => exact .of_no_acks rfl
  case forward t data =>
    cases h
    exact k.send data
  case relay =>
    have .relay _ hp hd ho := h
    intro _ _ _ _ h₁
    have ⟨_, hd', link⟩ := w.peer r c _ hr hp
    cases hd.symm.trans hd'
    exact absurd (link.device (.inl h₁)) ho
  case receive =>
    have ⟨_, _, _, _, hc, _⟩ := h.receive_eq
    rw [hc]
    exact k
  all_goals
    cases h
    exact k

theorem balanced_of_moves (w : s₁.WF) (hb : s.Allowed a s₁ b) (hs : Steady r window s a) :
    s₁.Moves r b x y z → (s₁.history r).Waits (s₁.sock r) (s₁.remotePeer r) →
    (∀ c, s₁.sock r = some c → (s₁.history r).Balanced window c.availableSendBytes) →
    ∀ c, x = some c → z.Balanced window c.availableSendBytes
  | .idle, _, k => k
  | .create .., _, _ => fun _ _ => .of_not_opened rfl
  | .link _ _ ho .., _, _ => fun _ _ => .of_not_opened ho
  | .attach (c := c) hr _ _, hw, k => fun _ hc => by
    cases hc
    have ⟨ha, _, _, same⟩ := hb
    exact balanced_of_ack hs ha same (hr ▸ hw) (k c hr)
  | .unlink (c := c) hr _, _, k | .linger (c := c) hr, _, k => fun _ hc => by
    cases hc
    exact k c hr
  | .release .., _, _ | .destroy .., _, _ | .drop .., _, _ => by simp
  | .socket hr h, hw, k => fun _ hc => by
    cases hc
    exact balanced_of_socket w hb hs hr h (hr ▸ hw) (k _ hr)

theorem balanced_of_runs (hs : Reachable P s₀) (ha : (s₀.history r).acks = [])
    (h : Runs (Steady r window) s₀ s) (hr : s.sock r = some c) :
    (s.history r).Balanced window c.availableSendBytes := by
  have both : (s.history r).Waits (s.sock r) (s.remotePeer r) ∧
      ∀ c, s.sock r = some c → (s.history r).Balanced window c.availableSendBytes := by
    refine preserved_by_runs (J := fun s => (s.history r).Waits (s.sock r) (s.remotePeer r) ∧
      ∀ c, s.sock r = some c → (s.history r).Balanced window c.availableSendBytes) hs.wf h ?_
      ⟨waits_of_reachable hs, fun _ _ => .of_no_acks ha⟩
    intro s₁ a s₂ w steady hnext k
    refine preserved_by_moves (K := fun x y z => z.Waits x y ∧
      ∀ c, x = some c → z.Balanced window c.availableSendBytes) r w hnext ?_ k
    intro _ _ _ _ _ w₁ hb hm ⟨hw, k⟩
    exact ⟨waits_of_moves w₁ hm hw, balanced_of_moves w₁ hb steady hm hw k⟩
  exact both.right c hr

theorem toInt_window (window : UInt64) : window.toInt64.toInt =
    if window.toNat < 2 ^ 63 then (window.toNat : Int) else (window.toNat : Int) - 2 ^ 64 := by
  have h : window.toInt64.toInt = window.toBitVec.toInt := rfl
  rw [h, BitVec.toInt_eq_toNat_cond]
  simp only [UInt64.toNat_toBitVec]
  split <;> split <;> omega

-- The credit of a stream and the bytes that are not acknowledged yet add up to the first grant, cut
-- at the window. The window is cast to a signed number for that, which makes it negative if it is
-- too large.
theorem credit_conserved (hs : Reachable (fun _ _ => True) s₀) (ha : (s₀.history r).acks = [])
    (h : Runs (Steady r window) s₀ s) (hr : s.sock r = some c) (ho : (s.history r).opened)
    (hn : c.availableSendBytes = some n) (hg : (s.history r).acks = some g :: rest) :
    n + ((s.history r).sent.length - (s.history r).acknowledged) = min g window.toInt64.toInt ∧
    (n + ((s.history r).sent.length - (s.history r).acknowledged) = min g window.toNat ↔
      window.toNat < 2 ^ 63 ∨ g ≤ (window.toNat : Int) - 2 ^ 64) := by
  have conserved : n + ((s.history r).sent.length - (s.history r).acknowledged) =
      min g window.toInt64.toInt := balanced_of_runs hs ha h hr n g rest hn ho hg
  refine ⟨conserved, ?_⟩
  rw [conserved, toInt_window]
  split
  case isTrue hw => exact iff_of_true rfl (.inl hw)
  case isFalse hw => omega

def isFair (s : Looper) (a : Action) : Bool :=
  s.delayedAckBytes = 65536 && match a with
    | .packet _ p _ => (s.history 0).acks = [] || (ackedBytes p.toApacket).all fun m =>
      m.all fun n => (s.history 0).acknowledged + n ≤ (s.history 0).sent.length
    | _ => true

theorem steady_of_isFair (s : Looper) (a : Action) (h : isFair s a) : Steady 0 65536 s a := by
  simp only [isFair, Bool.and_eq_true, decide_eq_true_eq] at h
  refine ⟨h.left, ?_⟩
  rintro t n ⟨p, os, c, ha, _, _, _, _, _, hb, _⟩ hne
  have h := h.right
  simpa [ha, hb, hne] using h

theorem credit_conserved_after_write : ∃ s₀ s : Looper, ∃ c, Runs (Steady 0 65536) s₀ s ∧
    s.sock 0 = some c ∧ c.availableSendBytes = some 7 ∧ (s.history 0).sent.length = 3 ∧
    (s.history 0).acknowledged = 2 ∧
    (7 : Int) + ((s.history 0).sent.length - (s.history 0).acknowledged) =
      min 8 (65536 : UInt64).toInt64.toInt ∧
    ((7 : Int) + ((s.history 0).sent.length - (s.history 0).acknowledged) =
      min 8 (65536 : UInt64).toNat ↔
        (65536 : UInt64).toNat < 2 ^ 63 ∨ (8 : Int) ≤ ((65536 : UInt64).toNat : Int) - 2 ^ 64) := by
  have run : (exec next {} [.setDelayedAckBytes 0, .packet 0 .connectDelayed {},
      .openService 0 (ascii "shell:")]).any fun s₀ => (s₀.history 0).acks = [] &&
        (exec (guarded isFair next) s₀ [
          .packet 0 (.ofCommand .okay 9 1 [8, 0, 0, 0] (by decide)) {},
          .poll [(0, { input := true })], .dispatch { reads := [.data [1, 2, 3]] },
          .packet 0 (.ofCommand .okay 9 1 [2, 0, 0, 0] (by decide)) {}]).any fun s =>
            (s.sock 0).any (·.availableSendBytes = some 7) && (s.history 0).opened &&
            (s.history 0).sent.length = 3 && (s.history 0).acks = [some 8, some 2] := by
    decide +kernel
  simp only [Bool.and_eq_true, Option.any_eq_true, decide_eq_true_eq] at run
  have ⟨s₀, hs₀, ha, s, hs, ⟨⟨⟨c, hr, hn⟩, ho⟩, hl⟩, hg⟩ := run
  have hruns : Runs (Steady 0 65536) s₀ s := .of_guarded steady_of_isFair hs
  have acknowledged : (s.history 0).acknowledged = 2 := by simp [History.acknowledged, hg]
  exact ⟨s₀, s, c, hruns, hr, hn, hl, acknowledged,
    credit_conserved (.of_exec hs₀) ha hruns hr ho hn hg⟩

-- With a window that is meant as no limit at all, the grant turns into a negative credit.
theorem unlimited_window_destroys_credit : ∃ s : Looper, ∃ c, Reachable (fun _ _ => True) s ∧
    s.delayedAckBytes = 0xffffffffffffffff ∧ s.sock 0 = some c ∧ (s.history 0).opened ∧
    c.availableSendBytes = some (-1) ∧ (s.history 0).acks = [some 65536] ∧
    (s.history 0).sent = [] := by
  have ⟨s, hs, hw, c, hr, rest⟩ : ∃ s, Reachable (fun _ _ => True) s ∧
      s.delayedAckBytes = 0xffffffffffffffff ∧ ∃ c ∈ s.sock 0, (s.history 0).opened ∧
        c.availableSendBytes = some (-1) ∧ (s.history 0).acks = [some 65536] ∧
        (s.history 0).sent = [] :=
    Reach.exists_of_exec [.setDelayedAckBytes 0xffffffffffffffff, .packet 0 .connectDelayed {},
      .openService 0 (ascii "shell:"),
      .packet 0 (.ofCommand .okay 9 1 [0, 0, 1, 0] (by decide)) {}] (by decide +kernel)
  exact ⟨s, c, hs, hw, hr, rest⟩

end Looper

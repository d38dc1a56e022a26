import LibAdb.Machine.Stream

-- The incoming direction of a stream: what arrives for a socket and is written to its fd.

namespace History

-- What has arrived and is not written yet is in the queue, as long as the socket exists.
def Delivered (h : History) : Option ASocket → Prop
  | some c =>
    h.received = h.written ++ c.packetQueue ∧ h.writeFailed = c.hasWriteError ∧ h.destroyed = false
  | none   => h.written <+: h.received

-- Nothing that could be written was left in the queue when the socket was destroyed.
def Drained (h : History) : Prop :=
  h.destroyed → h.writeFailed ∨ h.written = h.received

namespace Delivered

variable {h : History} {c c' : ASocket} {x : Option ASocket}

theorem written_prefix_received (k : h.Delivered x) : h.written <+: h.received := by
  cases x
  case none => exact k
  case some c => exact k.left ▸ List.prefix_append ..

theorem drained (k : h.Delivered (some c)) : h.Drained := by
  intro hd
  exact absurd hd (Bool.eq_false_iff.mp k.right.right)

theorem fresh (hc : c.Fresh) : Delivered {} (some c) :=
  ⟨by simp [hc.queue], hc.error.symm, rfl⟩

theorem destroy (k : h.Delivered (some c)) (hc : c.hasWriteError ∨ c.packetQueue = []) :
    (h.record (.destroyed r)).Drained := by
  intro _
  cases hc
  case inl hc => exact .inl (k.right.left.trans hc)
  case inr hc => exact .inr (k.left.trans (by simp [hc, History.record])).symm

end Delivered

end History

theorem SocketAct.Step.delivered {s : Looper} {h : History} (hs : Step s r c a es c')
    (k : h.Delivered (some c)) : (h.steps r es).Delivered (some c') := by
  by_cases ha : ∃ data, a = .receive data
  case pos =>
    have ⟨data, ha⟩ := ha
    subst ha
    have ⟨q, ws, f, b, hc, hq, _, hh⟩ := hs.receive_eq
    rw [hh, hc]
    refine ⟨?_, congrArg (· || f) k.right.left, k.right.right⟩
    calc
      h.received ++ data.getD [] = h.written ++ (c.packetQueue ++ data.getD []) := by
        rw [k.left, List.append_assoc]
      _ = h.written ++ ws ++ q := by rw [hq, List.append_assoc]
  case neg =>
    rw [hs.history_eq (fun data hd => ha ⟨data, hd⟩)]
    cases hs
    case receive data w b l hb hd => exact absurd ⟨data, rfl⟩ ha
    all_goals exact k

namespace Looper

variable {s s₁ : Looper} {r : Ref} {a : Action} {b : Act}

theorem delivered_of_moves :
    s.Moves r b x y z → (s.history r).Delivered (s.sock r) → z.Delivered x
  | .idle, k => k
  | .create _ _ hc, _ => .fresh hc
  | .link hr .., k | .attach hr .., k | .unlink hr _, k | .linger hr, k => by
    rw [hr] at k
    exact k
  | .release .., k | .destroy .., k | .drop .., k => k.written_prefix_received
  | .socket hr h, k => by
    rw [hr] at k
    exact h.delivered k

theorem drained_of_moves (hb : b ≠ .drop r) :
    s.Moves r b x y z → (s.history r).Delivered (s.sock r) → (s.history r).Drained → z.Drained
  | .idle, _, k | .release .., _, k | .link .., _, k | .attach .., _, k | .unlink .., _, k
  | .linger .., _, k => k
  | .create .., _, _ => nofun
  | .destroy hr hc, d, _ => by
    rw [hr] at d
    exact d.destroy hc
  | .drop .., _, _ => absurd rfl hb
  | .socket hr h, d, _ => by
    rw [hr] at d
    exact (h.delivered d).drained

theorem delivered_next (w : s.WF) (h : s.next a = some s₁)
    (k : (s.history r).Delivered (s.sock r)) : (s₁.history r).Delivered (s₁.sock r) :=
  preserved_by_moves (K := fun x _ z => z.Delivered x) r w h
    (fun _ _ _ _ _ _ _ hm => delivered_of_moves hm) k

theorem drained_next (w : s.WF) (hd : ¬s.Drops a r) (h : s.next a = some s₁)
    (d : (s.history r).Delivered (s.sock r)) (k : (s.history r).Drained) :
    (s₁.history r).Drained := by
  refine (preserved_by_moves (K := fun x _ z => z.Delivered x ∧ z.Drained) r w h ?_ ⟨d, k⟩).right
  intro s₁ b x y z _ hb hm ⟨d₁, k₁⟩
  have hne : b ≠ .drop r := by
    intro he
    subst he
    exact hd hb
  exact ⟨delivered_of_moves hm d₁, drained_of_moves hne hm d₁ k₁⟩

theorem delivered_of_reachable (h : Reachable P s) : (s.history r).Delivered (s.sock r) :=
  preserved_by_runs (J := fun s => (s.history r).Delivered (s.sock r)) .initial h
    (fun _ _ _ w _ hs => delivered_next w hs) List.prefix_rfl

theorem drained_of_reachable (h : Reachable (fun s a => ¬s.Drops a r) s) :
    (s.history r).Drained := by
  have both : (s.history r).Delivered (s.sock r) ∧ (s.history r).Drained := by
    refine preserved_by_runs (J := fun s => (s.history r).Delivered (s.sock r) ∧
      (s.history r).Drained) .initial h ?_ ⟨List.prefix_rfl, nofun⟩
    intro _ _ _ w hd hs ⟨d, k⟩
    exact ⟨delivered_next w hs d, drained_next w hd hs d k⟩
  exact both.right

theorem delivered_of_acts (w : s.WF) (h : Acts P s s₁) (k : (s.history r).Delivered (s.sock r)) :
    (s₁.history r).Delivered (s₁.sock r) :=
  Reach.invariant_under (I := WF) (J := fun s => (s.history r).Delivered (s.sock r))
    (fun _ _ _ _ hs w => w.act hs) (fun _ _ _ w _ hs => delivered_of_moves (hs.moves w)) h w k

-- When the end of the fd is read from a closing socket, the rest of its queue is lost.
theorem not_drained_of_drops (w : s.WF) (hd : s.Drops a r) (h : s.next a = some s₁)
    (k : (s.history r).Delivered (s.sock r)) : ¬(s₁.history r).Drained := by
  have ⟨c, ev, os, hd, hc, he, hf⟩ := hd
  have ⟨_, _, _, _, hr, _⟩ := hd
  have cp : c.peer = none := ((w.sound r c hr).closing hc).left
  have ⟨s₂, c₂, a₂, hr₂, f, d, hh, hd⟩ := hd.next_detached w cp h
  have k₂ := delivered_of_acts w a₂ k
  have full : c₂.fdFull := f.full.trans hf
  simp only [ASocket.fdFull, Bool.and_eq_true, decide_eq_true_eq, Bool.not_eq_true'] at full
  rw [hr₂] at k₂
  rw [hh]
  intro hn
  rcases hn (hd he hc) with hn | hn
  · exact Bool.false_ne_true (full.right.symm.trans (k₂.right.left.symm.trans hn))
  · exact full.left (List.append_right_eq_self.mp (k₂.left.symm.trans hn.symm))

-- What is written to the fd of a socket is what arrived for it, and all of it is written before the
-- socket is destroyed unless writing fails. The step that breaks this is to read the end of the fd
-- from a closing socket that is not done writing.
theorem incoming_stream_delivered (h : Reachable (fun s a => ¬s.Drops a r) s) :
    (s.history r).written <+: (s.history r).received ∧
    ((s.history r).destroyed →
      (s.history r).writeFailed ∨ (s.history r).written = (s.history r).received) ∧
    ∀ a s₁, s.next a = some s₁ →
      (s₁.history r).written <+: (s₁.history r).received ∧
      ((s₁.history r).Drained ↔ ¬s.Drops a r) := by
  have d : (s.history r).Delivered (s.sock r) := delivered_of_reachable h
  have k := drained_of_reachable h
  refine ⟨d.written_prefix_received, k, fun a s₁ hs => ⟨(delivered_next h.wf hs d).written_prefix_received, ?_⟩⟩
  constructor
  case mp =>
    intro k₁ hd
    exact not_drained_of_drops h.wf hd hs d k₁
  case mpr =>
    intro hd
    exact drained_next h.wf hd hs d k

def isSpared (s : Looper) : Action → Bool
  | .dispatch _ => s.ready.all (!·.2.read)
  | _           => true

theorem not_drops_of_isSpared (s : Looper) (a : Action) (h : isSpared s a) : ¬s.Drops a 0 := by
  rintro ⟨_, _, _, ⟨_, ha, hr, he, _⟩, _⟩
  simp_all [isSpared]

theorem incoming_stream_delivered_after_close : ∃ s : Looper, (s.history 0).destroyed ∧
    (s.history 0).received = [1, 2, 3] ∧
    (s.history 0).written <+: (s.history 0).received ∧
    ((s.history 0).destroyed →
      (s.history 0).writeFailed ∨ (s.history 0).written = (s.history 0).received) ∧
    ∀ a s₁, s.next a = some s₁ →
      (s₁.history 0).written <+: (s₁.history 0).received ∧
      ((s₁.history 0).Drained ↔ ¬s.Drops a 0) := by
  have ⟨s, hs, hd, hr⟩ : ∃ s, Reachable (fun s a => ¬s.Drops a 0) s ∧ (s.history 0).destroyed ∧
      (s.history 0).received = [1, 2, 3] :=
    Reach.exists_of_guarded not_drops_of_isSpared [.packet 0 .connect {},
      .openService 0 (ascii "shell:"), .packet 0 (.ofCommand .okay 9 1 [] (by decide)) {},
      .packet 0 (.ofCommand .wrte 9 1 [1, 2, 3] (by decide)) { writev := fun _ _ => .wrote 1 },
      .packet 0 (.ofCommand .clse 9 1 [] (by decide)) {}, .poll [(0, { output := true })],
      .dispatch { writev := fun _ _ => .wrote 2 }] (by decide +kernel)
  exact ⟨s, hd, hr, incoming_stream_delivered hs⟩

-- The device closes the stream while the client still has to take two bytes. The client shuts its
-- side down before it does, which is reported as a hang-up, and the two bytes are gone.
theorem hang_up_while_closing_loses_data : ∃ s, Reachable (fun _ _ => True) s ∧
    (s.history 0).destroyed ∧ (s.history 0).writeFailed = false ∧
    (s.history 0).received = [1, 2, 3] ∧ (s.history 0).written = [1] :=
  Reach.exists_of_exec [.packet 0 .connect {}, .openService 0 (ascii "shell:"),
    .packet 0 (.ofCommand .okay 9 1 [] (by decide)) {},
    .packet 0 (.ofCommand .wrte 9 1 [1, 2, 3] (by decide)) { writev := fun _ _ => .wrote 1 },
    .packet 0 (.ofCommand .clse 9 1 [] (by decide)) {}, .poll [(0, { hup := true })],
    .dispatch { reads := [.data []] }] (by decide +kernel)

end Looper

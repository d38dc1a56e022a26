import LibAdb.Machine.Stream

-- The outgoing direction of a stream: what is read from the fd of a socket and sent to the device.

namespace Looper

-- Data is read from the fd of a socket that has no peer to hand it to.
def Discards (s : Looper) (a : Action) (r : Ref) : Prop :=
  ∃ data, s.Reads a r data ∧ s.Pending r

-- The step loses nothing that is read from the socket, unless the other side closed the stream.
def Keeps (r : Ref) (s : Looper) (a : Action) : Prop :=
  (s.history r).remoteClosed = false → ¬s.Discards a r

end Looper

-- Everything that was read has been sent, unless the other side closed the stream.
def History.Carried (h : History) : Prop :=
  h.opened → h.remoteClosed = false → h.sent = h.read

theorem History.Carried.initial : Carried {} :=
  nofun

namespace Looper

variable {s s₁ s₂ : Looper} {r : Ref} {a : Action} {b : Act}

theorem carried_of_socket {b : SocketAct} (w : s₁.WF) (hb : s.Allowed a s₁ (.socket r b)) (hk : Keeps r s a)
    (hc : (s.history r).remoteClosed → (s₁.history r).remoteClosed) (hr : s₁.sock r = some c)
    (h : SocketAct.Step s₁ r c b es c') (k : (s₁.history r).Carried) :
    ((s₁.history r).steps r es).Carried := by
  have ⟨_, _, _, _, _, hh⟩ := h.history_outgoing (s₁.history r)
  rw [hh]
  cases b
  case opened => exact fun _ _ => rfl
  case forward => exact fun o rc => congrArg (· ++ _) (k o rc)
  case relay =>
    intro o _
    have .relay l hp hd ho := h
    have ⟨_, hd', link⟩ := w.peer r c _ hr hp
    cases hd.symm.trans hd'
    exact absurd (link.device (.inl o)) ho
  case discard data =>
    intro _ rc
    have hc' : (s.history r).remoteClosed = false := by
      refine Bool.eq_false_iff.mpr fun h => ?_
      exact Bool.false_ne_true (rc.symm.trans (hc h))
    exact absurd ⟨data, hb⟩ (hk hc')
  case hangUp => exact fun _ rc => nomatch rc
  all_goals exact k

theorem remoteClosed_of_moves (hc : (s.history r).remoteClosed) :
    s.Moves r b x y z → z.remoteClosed
  | .idle | .attach .. | .link .. | .unlink .. | .release .. | .destroy .. | .drop ..
  | .linger .. => hc
  | .create _ hh _ => by simp [hh] at hc
  | .socket hr h => by
    rename_i b _ _
    have ⟨_, _, _, _, _, hh⟩ := h.history_outgoing (s.history r)
    rw [hh]
    cases b <;> simp [History.after, hc]

theorem carried_of_moves (w : s₁.WF) (hb : s.Allowed a s₁ b) (hk : Keeps r s a)
    (hc : (s.history r).remoteClosed → (s₁.history r).remoteClosed) :
    s₁.Moves r b x y z → (s₁.history r).Carried → z.Carried
  | .idle, k | .attach .., k | .link .., k | .unlink .., k | .release .., k | .destroy .., k
  | .drop .., k | .linger .., k => k
  | .create .., _ => .initial
  | .socket hr h, k => carried_of_socket w hb hk hc hr h k

theorem carried_next (w : s.WF) (hk : Keeps r s a) (h : s.next a = some s₁)
    (k : (s.history r).Carried) : (s₁.history r).Carried := by
  refine (preserved_by_moves (K := fun _ _ z =>
    ((s.history r).remoteClosed → z.remoteClosed) ∧ z.Carried) r w h ?_ ⟨id, k⟩).right
  intro s₁ b x y z w₁ hb hm ⟨hc, k₁⟩
  exact ⟨fun h => remoteClosed_of_moves (hc h) hm, carried_of_moves w₁ hb hk hc hm k₁⟩

theorem not_carried_of_discards (w : s.WF) (hd : s.Discards a r) (h : s.next a = some s₁)
    (ho : (s.history r).opened) (hc : (s.history r).remoteClosed = false)
    (k : (s.history r).Carried) : ¬(s₁.history r).Carried := by
  have ⟨data, ⟨c, ev, os, hd, hdata, ne⟩, _, hr, cp⟩ := hd
  have ⟨_, _, _, _, hr', _⟩ := hd
  cases hr.symm.trans hr'
  have ⟨s₂, _, _, _, f, _, hh, _⟩ := hd.next_detached w cp h
  have ⟨_, _, _, hf⟩ := f.history
  rw [hh, hf, hdata]
  intro k₁
  have hs : (s.history r).sent = (s.history r).read ++ data := k₁ ho hc
  rw [k ho hc] at hs
  exact ne (List.self_eq_append_right.mp hs)

theorem carried_of_reachable (h : Reachable (Keeps r) s) : (s.history r).Carried :=
  preserved_by_runs (J := fun s => (s.history r).Carried) .initial h
    (fun _ _ _ w hk hs => carried_next w hk hs) .initial

theorem outgoing_stream_intact (h : Reachable (Keeps r) s) (ho : (s.history r).opened)
    (hc : (s.history r).remoteClosed = false) : (s.history r).sent = (s.history r).read ∧
      ∀ a s₁, s.next a = some s₁ → ((s₁.history r).Carried ↔ Keeps r s a) := by
  have k := carried_of_reachable h
  refine ⟨k ho hc, fun a s₁ hs => ?_⟩
  constructor
  case mp =>
    intro k₁ _ hd
    exact not_carried_of_discards h.wf hd hs ho hc k k₁
  case mpr =>
    intro hk
    exact carried_next h.wf hk hs k

def isConnected (s : Looper) : Action → Bool
  | .dispatch _ => (s.sock 0).all (·.peer.isSome)
  | _           => true

theorem keeps_of_isConnected (s : Looper) (a : Action) (h : isConnected s a) : Keeps 0 s a := by
  rintro - ⟨_, ⟨_, _, _, ⟨_, ha, _⟩, _⟩, c, hr, cp⟩
  simp_all [isConnected]

theorem outgoing_stream_intact_after_okay : ∃ s : Looper, (s.history 0).sent = [1, 2, 3] ∧
    (s.history 0).sent = (s.history 0).read ∧
    ∀ a s₁, s.next a = some s₁ → ((s₁.history 0).Carried ↔ Keeps 0 s a) := by
  have ⟨s, hs, ho, hc, hd⟩ : ∃ s, Reachable (Keeps 0) s ∧ (s.history 0).opened ∧
      (s.history 0).remoteClosed = false ∧ (s.history 0).sent = [1, 2, 3] :=
    Reach.exists_of_guarded keeps_of_isConnected [.packet 0 .connect {},
      .openService 0 (ascii "shell:"), .packet 0 (.ofCommand .okay 9 1 [] (by decide)) {},
      .poll [(0, { input := true })], .dispatch { reads := [.data [1, 2, 3]] }] (by decide +kernel)
  exact ⟨s, hd, outgoing_stream_intact hs ho hc⟩

-- A hang-up is reported as a read event even before the device has answered the `OPEN`. What is read
-- up to the end of the data is lost.
theorem hang_up_before_okay_loses_data : ∃ s, Reachable (fun _ _ => True) s ∧
    (s.history 0).opened ∧ (s.history 0).remoteClosed = false ∧
    (s.history 0).read = [1, 2, 3] ∧ (s.history 0).sent = [] :=
  Reach.exists_of_exec [.packet 0 .connect {}, .openService 0 (ascii "shell:"),
    .poll [(0, { hup := true })], .dispatch { reads := [.data [1, 2, 3], .data []] }]
    (by decide +kernel)

end Looper

import LibAdb.Machine.CloseAll
import LibAdb.Machine.Stream

namespace Looper

variable {s s₁ s₂ s' : Looper} {r : Ref} {c c' : ASocket} {a : Action} {b : Act} {t : Tid}

structure Attached (s : Looper) (t : Tid) (r : Ref) (c : ASocket) : Prop where
  sock      : s.sock r = some c
  isLocal   : c.ops.isLocal
  closing   : c.closing = false
  transport : c.transport = some t

-- The sockets of a transport have a credit exactly if the transport supports delayed
-- acknowledgements.
def ModesAgree (s : Looper) : Prop :=
  ∀ t r c, s.Attached t r c → (c.availableSendBytes.isSome ↔ (s.transports t).delayedAck)

-- A `CNXN` comes while the transport is offline, and its banner does not fit a socket that is still
-- attached to the transport.
def Mismatches (s : Looper) : Action → Prop
  | .packet t p _ =>
    p.kind = some .cnxn ∧ (s.transports t).connectionState = .offline ∧
      ∃ r c, s.Attached t r c ∧
        ¬(c.availableSendBytes.isSome ↔ (connected (s.transports t) p.toApacket).delayedAck)
  | _ => False

-- The socket fits its transport, or it was attached to it before and keeps its mode.
def Settled (s : Looper) (t : Tid) (r : Ref) (c' : ASocket) : Prop :=
  (c'.availableSendBytes.isSome ↔ (s.transports t).delayedAck) ∨
    ∃ c, s.Attached t r c ∧ c'.availableSendBytes.isSome = c.availableSendBytes.isSome

theorem settled_of_socket {b : SocketAct} (hb : s.Allowed a s₁ (.socket r b))
    (hr : s₁.sock r = some c) (h : SocketAct.Step s₁ r c b es c') (l : c'.ops.isLocal)
    (o : c'.closing = false) (ht : c'.transport = some t) :
    s₁.aborted.isSome ∨ s₁.Settled t r c' := by
  have lc : c.ops.isLocal := h.preserves_kind.left.symm.trans l
  have oc : c.closing = false := h.preserves_closing.symm.trans o
  have same (ht : c.transport = some t)
      (ha : c'.availableSendBytes.isSome = c.availableSendBytes.isSome) :
      s₁.aborted.isSome ∨ s₁.Settled t r c' :=
    .inr <| .inr ⟨c, ⟨hr, lc, oc, ht⟩, ha⟩
  cases h
  case accepted | opened =>
    cases ht
    refine .inr <| .inl ?_
    unfold ASocket.boundTo
    split <;> simp_all
  case bind => exact .inl hb.right
  case tend hl => cases lc.symm.trans hl
  case switch hl => simp [hl, SocketOps.isLocal] at lc
  case receive data w f l hf hd =>
    obtain ⟨q, ws, g, hw, _⟩ := c.receive_spec r data w
    exact same (by simpa [hw] using ht) (by simp [hw])
  case acked => exact same ht (c.credited_isSome)
  case forward => exact same ht (by simp [ASocket.spent])
  case relay => exact same ht (by simp)
  all_goals exact same ht rfl

theorem settled_of_moves (hb : s.Allowed a s₁ b) (m : s₁.Moves r b x y z) (hx : x = some c')
    (l : c'.ops.isLocal) (o : c'.closing = false) (ht : c'.transport = some t) :
    s₁.aborted.isSome ∨ s₁.Settled t r c' := by
  cases m
  case idle => exact .inr <| .inr ⟨c', ⟨hx, l, o, ht⟩, rfl⟩
  case create h =>
    cases hx
    cases (h.unbound l).symm.trans ht
  case socket c _ _ _ hr h =>
    cases hx
    exact settled_of_socket hb hr h l o ht
  case attach c _ _ _ hr _ _ =>
    cases hx
    exact .inr <| .inr ⟨c, ⟨hr, l, o, ht⟩, c.credited_isSome⟩
  case link c _ hr _ _ _ _ | unlink c hr _ =>
    cases hx
    exact .inr <| .inr ⟨c, ⟨hr, l, o, ht⟩, rfl⟩
  case linger =>
    cases hx
    cases o
  case release | destroy | drop => cases hx

theorem not_attached_of_handleOffline (w : s.WF) (w' : (s.handleOffline t).WF)
    (h : (s.transports t).connectionState ≠ .offline) : ¬(s.handleOffline t).Attached t r c := by
  intro hc
  have hm : r ∈ (s.handleOffline t).localSocketList :=
    (w'.list r).mpr ⟨c, hc.sock, hc.isLocal, hc.closing⟩
  have hb : (s.handleOffline t).belongs t r := (belongs_iff hc.sock).mpr (.inl hc.transport)
  rw [handleOffline_complete w h hm] at hb
  cases hb

-- The features of a transport are replaced only by a `CNXN`. If the transport was not offline then,
-- its sockets have been closed.
theorem modes_of_transport (w₀ : s.WF) (w : s₁.WF) (ha : ¬s.Mismatches a)
    (hb : s.Rewrites a s₁ t tr) (k : s₁.ModesAgree) : (s₁.setTransport t tr).ModesAgree := by
  have other (he : tr.delayedAck = (s₁.transports t).delayedAck) :
      (s₁.setTransport t tr).ModesAgree := by
    intro t' r c hc
    have h := k t' r c { hc with }
    simp only [setTransport]
    split
    case isTrue ht =>
      subst ht
      rwa [he]
    case isFalse => exact h
  cases hb
  case keep h => exact other (congrArg (·.2.2) h)
  case move _ hd => exact other hd
  case connect p os ha' hk hs htr =>
    intro t' r c hc
    by_cases ht : t' = t
    case neg =>
      have h := k t' r c { hc with }
      simpa [setTransport, ht] using h
    case pos =>
      subst ht
      have hd : (s₁.setTransport t' tr).transports t' = connected (s₁.transports t') p.toApacket := by
        simp [setTransport, htr]
      rw [hd]
      by_cases hoff : (s.transports t').connectionState = .offline
      case pos =>
        have hs : s₁ = s := by simpa [handleOffline, hoff] using hs
        subst hs ha'
        exact Classical.byContradiction fun hn => ha ⟨hk, hoff, r, c, { hc with }, hn⟩
      case neg =>
        subst hs
        exact absurd { hc with } (not_attached_of_handleOffline w₀ w hoff)

theorem ModesAgree.act (w₀ : s.WF) (ha : ¬s.Mismatches a) (w : s₁.WF) (hb : s.Allowed a s₁ b)
    (hs : Act.Step s₁ b s₂) (k : s₁.aborted.isSome ∨ s₁.ModesAgree) :
    s₂.aborted.isSome ∨ s₂.ModesAgree := by
  rcases k with h | k
  · exact .inl (hs.stays_aborted h)
  · by_cases ht : ∃ t tr, b = .transport t tr
    case pos =>
      obtain ⟨t, tr, rfl⟩ := ht
      cases hs
      exact .inr (modes_of_transport w₀ w ha hb k)
    case neg =>
      have htr := hs.frame.transports fun t tr h => ht ⟨t, tr, h⟩
      by_cases hab : s₁.aborted.isSome
      case pos => exact .inl (hs.stays_aborted hab)
      case neg =>
        refine .inr fun t r c' hc => ?_
        rw [htr]
        rcases settled_of_moves hb (hs.moves w) hc.sock hc.isLocal hc.closing hc.transport with h | h | h
        · exact absurd h hab
        · exact h
        · have ⟨c, hc₁, he⟩ := h
          exact he ▸ k t r c hc₁

theorem ModesAgree.runs (h : Reachable (fun s a => ¬s.Mismatches a) s) :
    s.aborted.isSome ∨ s.ModesAgree := by
  refine preserved_by_runs (J := fun s => s.aborted.isSome ∨ s.ModesAgree) .initial h ?_ ?_
  · intro s₁ a s₂ w ha hs k
    exact preserved_by_next w hs (fun _ _ _ w₁ hb hs k => act w ha w₁ hb hs k) k
  · exact .inr fun t r c hc => by cases hc.sock

-- A `CNXN` for a transport that is offline keeps its sockets and changes their mode.
theorem not_modesAgree_of_mismatches (h : s.next a = some s') (ha : s.Mismatches a) :
    ¬s'.ModesAgree := by
  cases a <;> simp only [Mismatches] at ha
  case packet t p os =>
    obtain ⟨hk, hoff, r, c, hc, hn⟩ := ha
    have hs' : s' = s.setTransport t (connected (s.transports t) p.toApacket) := by
      have hp : s' = s.handlePacket t p.toApacket os := by
        simp only [next, step] at h
        grind
      rw [hp, handlePacket, if_neg (by simp [p.framed])]
      simp [hk, handleNewConnection, handleOffline, hoff, connected]
    intro k
    have := k t r c (hs' ▸ { hc with })
    rw [hs'] at this
    exact hn (by simpa [setTransport] using this)

theorem flow_modes_agree (h : Reachable (fun s a => ¬s.Mismatches a) s) (hl : s.aborted = none) :
    s.ModesAgree ∧ ∀ a s', s.next a = some s' → s'.aborted = none →
      (s'.ModesAgree ↔ ¬s.Mismatches a) := by
  have k (s) (h : Reachable (fun s a => ¬s.Mismatches a) s) (hl : s.aborted = none) : s.ModesAgree :=
    (ModesAgree.runs h).resolve_left (by simp [hl])
  refine ⟨k s h hl, fun a s' hs hl' => ⟨fun k' ha => not_modesAgree_of_mismatches hs ha k', ?_⟩⟩
  exact fun ha => k s' (h.tail ha hs) hl'

def isKept (s : Looper) (a : Action) : Bool :=
  match a with
  | .packet t p _    =>
    p.kind ≠ some .cnxn || (s.transports t).connectionState ≠ .offline || s.sockets.next = 0
  | .openService _ _ => true
  | _                => false

theorem not_mismatches_of_isKept (s : Looper) (a : Action) (h : isKept s a) : ¬s.Mismatches a := by
  cases a <;> simp only [Mismatches, not_false_eq_true]
  case packet t p os =>
    rintro ⟨hk, hoff, r, c, hc, _⟩
    have := Store.lt_next hc.sock
    simp [isKept, hk, hoff] at h
    omega

-- The device connects twice, and its second banner changes the mode.
theorem flow_modes_agree_after_reconnect : ∃ s : Looper, ∃ c, s.Attached 0 1 c ∧
    c.availableSendBytes = some 0 ∧ s.ModesAgree ∧
    ∀ s', s.next .accept = some s' → s'.aborted = none → s'.ModesAgree := by
  have ⟨s, hs, ha, c, hr, l, o, ht, hc⟩ : ∃ s, Reachable (fun s a => ¬s.Mismatches a) s ∧
      s.aborted = none ∧ ∃ c ∈ s.sock 1, c.ops.isLocal ∧ c.closing = false ∧
        c.transport = some 0 ∧ c.availableSendBytes = some 0 :=
    Reach.exists_of_guarded not_mismatches_of_isKept [.packet 0 .connect {},
      .openService 0 (ascii "shell:"), .packet 0 .connectDelayed {},
      .openService 0 (ascii "shell:")] (by decide +kernel)
  have ⟨agree, step⟩ := flow_modes_agree hs ha
  exact ⟨s, c, ⟨hr, l, o, ht⟩, hc, agree, fun s' h hl => (step .accept s' h hl).mpr id⟩

-- An `AUTH` packet takes the transport offline without closing its sockets, and the next `CNXN`
-- brings delayed acknowledgements.
theorem connect_after_auth_changes_mode : ∃ s : Looper, ∃ c, Reachable (fun _ _ => True) s ∧
    s.aborted = none ∧ s.Attached 0 0 c ∧ c.availableSendBytes = none ∧
    (s.transports 0).delayedAck ∧ ¬s.ModesAgree := by
  have ⟨s, hs, ha, hd, c, hr, l, o, ht, hc⟩ : ∃ s, Reachable (fun _ _ => True) s ∧
      s.aborted = none ∧ (s.transports 0).delayedAck ∧ ∃ c ∈ s.sock 0, c.ops.isLocal ∧
        c.closing = false ∧ c.transport = some 0 ∧ c.availableSendBytes = none :=
    Reach.exists_of_exec [.packet 0 .connect {}, .openService 0 (ascii "shell:"),
      .packet 0 (.ofCommand .auth 9 0 [] (by decide)) {}, .packet 0 .connectDelayed {}]
      (by decide +kernel)
  refine ⟨s, c, hs, ha, ⟨hr, l, o, ht⟩, hc, hd, fun k => ?_⟩
  have := k 0 0 c ⟨hr, l, o, ht⟩
  simp [hc, hd] at this

end Looper

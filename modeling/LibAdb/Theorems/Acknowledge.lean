import Mathlib.Algebra.GroupWithZero.Nat
import LibAdb.Theorems.FlowMode

-- The receiving side of a stream with delayed acknowledgements.

namespace History

-- The `OKAY` packets that acknowledge data. The answer to the device's `OPEN` is not one of them: it
-- grants the device its window.
def confirmations (h : History) : List Bytes :=
  if h.accepted then h.okays.tail else h.okays

def confirmed (h : History) : Nat :=
  (h.confirmations.map fun payload => ((UInt32.ofBytes payload).getD 0).toNat).sum

-- What was received is acknowledged or still in the queue.
structure Conserves (h : History) (c : ASocket) : Prop where
  granted : h.accepted → h.okays ≠ []
  pending : c.peer = none → c.packetQueue = []
  balance : h.received.length = h.confirmed + c.packetQueue.length

theorem confirmed_congr {h h' : History} (ha : h'.accepted = h.accepted)
    (ho : h'.okays = h.okays) : h'.confirmed = h.confirmed := by
  simp only [confirmed, confirmations, ha, ho]

theorem confirmed_concat {h h' : History} {n : UInt32} (hg : h.accepted → h.okays ≠ [])
    (ha : h'.accepted = h.accepted) (ho : h'.okays = h.okays ++ [n.toBytes]) :
    h'.confirmed = h.confirmed + n.toNat := by
  have hl : h'.confirmations = h.confirmations ++ [n.toBytes] := by
    simp only [confirmations, ha, ho]
    split
    case isTrue h => exact List.tail_append_of_ne_nil (hg h)
    case isFalse => rfl
  simp [confirmed, hl, UInt32.ofBytes_toBytes]

theorem Conserves.congr {h h' : History} (k : h.Conserves c) (ha : h'.accepted = h.accepted)
    (ho : h'.okays = h.okays) (hr : h'.received = h.received) (hp : c'.peer = c.peer)
    (hq : c'.packetQueue = c.packetQueue) : h'.Conserves c' where
  granted := ha ▸ ho ▸ k.granted
  pending := hp ▸ hq ▸ k.pending
  balance := by
    rw [confirmed_congr ha ho, hr, hq]
    exact k.balance

end History

namespace Looper

variable {s s₀ s₁ s₂ : Looper} {r : Ref} {c c' : ASocket} {a : Action} {b : Act} {t : Tid}

theorem ackPayloads_eq (hc : c.availableSendBytes.isSome) (ht : c.transport = some t)
    (hd : (s.transports t).delayedAck) (hp : (s.peerOf c).isSome) :
    s.ackPayloads c n = [(UInt32.ofNat n).toBytes] := by
  have ⟨_, hc⟩ := Option.isSome_iff_exists.mp hc
  have ⟨_, hp⟩ := Option.isSome_iff_exists.mp hp
  simp [ackPayloads, ht, hp, hc, readyPayload, hd]

theorem conserves_of_receive (w : s.WF) (hr : s.sock r = some c)
    (h : SocketAct.Step s r c (.receive data) es c') (hc : c'.availableSendBytes.isSome)
    (ht : c'.transport = some t) (hd : (s.transports t).delayedAck)
    (hs : ∀ bs, .wrote r bs ∈ es → bs.length < 4294967296) (k : (s.history r).Conserves c) :
    ((s.history r).steps r es).Conserves c' := by
  obtain ⟨q, ws, f, b, hc', hq, hm, hh⟩ := h.receive_eq
  have cp' : c'.peer = c.peer := by rw [hc']
  have cq' : c'.packetQueue = q := by rw [hc']
  cases cp : c.peer
  case none =>
    have hdata : data = none := by
      have .receive _ _ hdata := h
      cases data
      case none => rfl
      case some =>
        obtain ⟨_, _, hp, _⟩ := hdata rfl
        cases cp.symm.trans hp
    have hq₀ := k.pending cp
    obtain ⟨_, hq₁⟩ : ws = [] ∧ q = [] := by simpa [hq₀, hdata] using hq
    have ha : s.ackPayloads c' ws.length = [] := by simp [ackPayloads, peerOf, cp', cp]
    exact k.congr (by rw [hh]) (by simp [hh, ha]) (by simp [hh, hdata]) cp'
      (by rw [cq', hq₁, hq₀])
  case some p =>
    obtain ⟨d, hd', _⟩ := w.peer r c p hr cp
    have ha : s.ackPayloads c' ws.length = [(UInt32.ofNat ws.length).toBytes] :=
      ackPayloads_eq hc ht hd (by simp [peerOf, cp', cp, hd'])
    have hw : (UInt32.ofNat ws.length).toNat = ws.length := by
      by_cases hws : ws = []
      case pos => simp [hws]
      case neg => exact UInt32.toNat_ofNat_of_lt (hs ws (hm hws))
    constructor
    case granted => simp [hh, ha]
    case pending => simp [cp', cp]
    case balance =>
      have balance := k.balance
      have hlen := congrArg List.length hq
      rw [History.confirmed_concat k.granted (by rw [hh]) (by rw [hh, ha]), hw, hh, cq']
      simp only [List.length_append] at hlen ⊢
      omega

theorem conserves_of_socket {b : SocketAct} (w : s.WF) (hr : s.sock r = some c)
    (h : SocketAct.Step s r c b es c') (l : c'.ops.isLocal) (hc : c'.availableSendBytes.isSome)
    (ht : c'.transport = some t) (hd : (s.transports t).delayedAck) (hb : ∀ t, b ≠ .bind t)
    (hs : ∀ bs, .wrote r bs ∈ es → bs.length < 4294967296)
    (k : c.availableSendBytes.isSome → c.transport = some t → (s.history r).Conserves c) :
    ((s.history r).steps r es).Conserves c' := by
  by_cases hrec : ∃ data, b = .receive data
  case pos =>
    obtain ⟨data, rfl⟩ := hrec
    obtain ⟨_, _, _, _, hc', _⟩ := h.receive_eq
    exact conserves_of_receive w hr h hc ht hd hs <|
      k (by simpa [hc'] using hc) (by simpa [hc'] using ht)
  case neg =>
    have hl := h.preserves_kind.left.symm.trans l
    rw [h.history_eq fun data hb => hrec ⟨data, hb⟩]
    have same (hp : c'.peer = c.peer) (hq : c'.packetQueue = c.packetQueue)
        (ht : c.transport = some t) (hc : c.availableSendBytes.isSome)
        (ha : ((s.history r).after b).accepted = (s.history r).accepted)
        (hrec : ((s.history r).after b).received = (s.history r).received)
        (hg : s.grants b = []) :
        ({ (s.history r).after b with okays := (s.history r).okays ++ s.grants b }).Conserves c' :=
      (k hc ht).congr ha (by simp [hg]) hrec hp hq
    cases h
    case receive data _ _ _ _ _ => exact absurd ⟨data, rfl⟩ hrec
    case accepted p d t n _ hp _ _ _ _ hu =>
      constructor
      case granted => simp [grants]
      case pending => exact fun h => absurd (hp.symm.trans h) (Option.some_ne_none _)
      case balance =>
        simp [ASocket.boundTo, hu.queue, History.after, hu.received, History.confirmed,
          History.confirmations, hu.okays, grants]
    case opened hu =>
      constructor
      case granted => simp [History.after, hu.accepted]
      case pending => exact fun _ => hu.queue
      case balance =>
        simp [ASocket.boundTo, hu.queue, History.after, hu.received, History.confirmed,
          History.confirmations, hu.okays, hu.accepted, grants]
    case bind => exact absurd rfl (hb _)
    case switch hl' => simp [hl', SocketOps.isLocal] at hl
    case acked => exact same rfl rfl ht (c.credited_isSome ▸ hc) rfl rfl rfl
    case forward => exact same rfl rfl ht (by simpa [ASocket.spent] using hc) rfl rfl rfl
    case relay => exact same rfl rfl ht (by simpa using hc) rfl rfl rfl
    all_goals exact same rfl rfl ht hc rfl rfl rfl

-- No single write took 4 GiB, so that its size fits into an `OKAY`. The limit of the kernel is lower.
def ShortWrites (s : Looper) (r : Ref) : Prop :=
  ∀ bs, .wrote r bs ∈ s.log → bs.length < 4294967296

-- The stream acknowledges what it receives, and its `OKAY` packets can carry the number of bytes.
def Acknowledges (s : Looper) (t : Tid) (r : Ref) : Prop :=
  ∀ c, s.Attached t r c → c.availableSendBytes.isSome →
    (s.transports t).delayedAck ∧ (s.history r).Conserves c

theorem conserves_of_moves (m : s.Moves r b x y z) (hb : ∀ a, b ≠ .socket r a) (hx : x = some c')
    (l : c'.ops.isLocal) (o : c'.closing = false) (ht : c'.transport = some t)
    (hc : c'.availableSendBytes.isSome) (k : s.Acknowledges t r) : z.Conserves c' := by
  cases m
  case idle => exact (k c' ⟨hx, l, o, ht⟩ hc).right
  case create h =>
    cases hx
    simp [h.credit] at hc
  case socket => exact absurd rfl (hb _)
  case attach c _ _ _ hr cp _ =>
    cases hx
    have ⟨granted, pending, balance⟩ := (k c ⟨hr, l, o, ht⟩ (c.credited_isSome ▸ hc)).right
    exact ⟨granted, nofun, balance⟩
  case link ha _ =>
    cases hx
    simp [ha] at hc
  case unlink ha =>
    cases hx
    simp [ha l] at hc
  case linger =>
    cases hx
    cases o
  case release | destroy | drop => cases hx

theorem acknowledges_of_transport (w₀ : s.WF) (w : s₁.WF)
    (hoff : (s.transports t).connectionState ≠ .offline) (hb : s.Rewrites a s₁ t' tr)
    (k : s₁.Acknowledges t r) : (s₁.setTransport t' tr).Acknowledges t r := by
  intro c hc hcredit
  have ⟨hd, conserves⟩ := k c { hc with } hcredit
  refine ⟨?_, conserves⟩
  by_cases ht : t = t'
  case neg => simpa [setTransport, ht] using hd
  case pos =>
    subst ht
    simp only [setTransport, if_true]
    cases hb
    case keep h => exact (congrArg (·.2.2) h).trans hd
    case move _ he => exact he.trans hd
    case connect p os _ _ hs _ =>
      subst hs
      exact absurd { hc with } (not_attached_of_handleOffline w₀ w hoff)

theorem acknowledges_act (w₀ : s.WF) (hoff : (s.transports t).connectionState ≠ .offline)
    (w : s₁.WF) (hb : s.Allowed a s₁ b) (hs : Act.Step s₁ b s₂) (hw : s₂.ShortWrites r)
    (k : s₁.aborted.isSome ∨ s₁.Acknowledges t r) : s₂.aborted.isSome ∨ s₂.Acknowledges t r := by
  by_cases hab : s₁.aborted.isSome
  case pos => exact .inl (hs.stays_aborted hab)
  case neg =>
    have k := k.resolve_left hab
    refine .inr ?_
    by_cases htr : ∃ t' tr, b = .transport t' tr
    case pos =>
      obtain ⟨t', tr, rfl⟩ := htr
      cases hs
      exact acknowledges_of_transport w₀ w hoff hb k
    case neg =>
      intro c' hc hcredit
      have htr := hs.frame.transports fun t' tr h => htr ⟨t', tr, h⟩
      have hd : (s₁.transports t).delayedAck := by
        rcases settled_of_moves hb (hs.moves w) hc.sock hc.isLocal hc.closing hc.transport with h | h | h
        · exact absurd h hab
        · exact h.mp hcredit
        · have ⟨c, hc₁, he⟩ := h
          exact (k c hc₁ (he ▸ hcredit)).left
      refine ⟨htr ▸ hd, ?_⟩
      by_cases hx : ∃ x, b = .socket r x
      case neg =>
        exact conserves_of_moves (hs.moves w) (fun x h => hx ⟨x, h⟩) hc.sock hc.isLocal hc.closing
          hc.transport hcredit k
      case pos =>
        obtain ⟨x, rfl⟩ := hx
        cases hs
        case socket c es c'' hr h =>
          cases ((sock_put hr).trans (if_pos rfl)).symm.trans hc.sock
          rw [history_emit, history_put]
          refine conserves_of_socket w hr h hc.isLocal hcredit hc.transport hd ?_ ?_ ?_
          · rintro t' rfl
            exact hab hb.right
          · exact fun bs hm => hw bs (List.mem_append_right _ hm)
          · intro hcredit' ht'
            have l := h.preserves_kind.left.symm.trans hc.isLocal
            have o := h.preserves_closing.symm.trans hc.closing
            exact (k c ⟨hr, l, o, ht'⟩ hcredit').right

def StaysOnline (t : Tid) (s : Looper) (_ : Action) : Prop :=
  (s.transports t).connectionState ≠ .offline

theorem acknowledges_of_runs (h₀ : Reachable P s₀)
    (hn : ∀ c, s₀.sock r = some c → c.availableSendBytes = none) (h : Runs (StaysOnline t) s₀ s)
    (hw : s.ShortWrites r) : s.aborted.isSome ∨ s.Acknowledges t r := by
  have short {s₁ s₂ : Looper} {b : Act} (hs : Act.Step s₁ b s₂) (hw : s₂.ShortWrites r) :
      s₁.ShortWrites r := fun bs hm => hw bs (hs.log_prefix.subset hm)
  refine preserved_by_runs
    (J := fun s => s.ShortWrites r → s.aborted.isSome ∨ s.Acknowledges t r) h₀.wf h ?_ ?_ hw
  · intro s₁ a s₂ w online hs k
    exact preserved_by_next w hs
      (fun _ _ _ w₁ hb hs k hw => acknowledges_act w online w₁ hb hs hw (k (short hs hw))) k
  · refine fun _ => .inr fun c hc hcredit => ?_
    simp [hn c hc.sock] at hcredit

-- Until a stream with delayed acknowledgements is closed, the data of the `WRTE` packets that came for
-- it is acknowledged or still in its queue, provided that its transport has been online since before
-- it was opened. So the queue holds no more than what the device sends ahead of the acknowledgements.
theorem received_eq_confirmed_add_queued (h₀ : Reachable (fun _ _ => True) s₀)
    (hn : ∀ c, s₀.sock r = some c → c.availableSendBytes = none) (h : Runs (StaysOnline t) s₀ s)
    (hl : s.aborted = none) (hw : s.ShortWrites r) (hc : s.Attached t r c)
    (hd : c.availableSendBytes.isSome) :
    (s.history r).received.length = (s.history r).confirmed + c.packetQueue.length ∧
      ∀ window, (s.history r).received.length ≤ (s.history r).confirmed + window →
        c.packetQueue.length ≤ window := by
  have k := (acknowledges_of_runs h₀ hn h hw).resolve_left (by simp [hl])
  have balance := (k c hc hd).right.balance
  exact ⟨balance, fun window hwin => by omega⟩

def isOnline (s : Looper) (_ : Action) : Bool :=
  (s.transports 0).connectionState ≠ .offline

theorem staysOnline_of_isOnline (s : Looper) (a : Action) (h : isOnline s a) : StaysOnline 0 s a := by
  simpa [isOnline, StaysOnline] using h

def wrote (s : Looper) : List Bytes :=
  s.log.filterMap fun
    | .wrote 0 bs => some bs
    | _           => none

-- Two of five bytes are written at once, and one more with the next write event.
theorem received_eq_confirmed_add_queued_after_writes : ∃ s : Looper, ∃ c, s.Attached 0 0 c ∧
    (s.history 0).okays = [[2, 0, 0, 0], [1, 0, 0, 0]] ∧ c.packetQueue = [4, 5] ∧
    (s.history 0).received.length = (s.history 0).confirmed + 2 := by
  have run : (exec next {} [.packet 0 .connectDelayed {}]).any fun s₀ => s₀.sock 0 = none &&
      (exec (guarded isOnline next) s₀ [.openService 0 (ascii "shell:"),
        .packet 0 (.ofCommand .okay 9 1 [8, 0, 0, 0] (by decide)) {},
        .packet 0 (.ofCommand .wrte 9 1 [1, 2, 3, 4, 5] (by decide)) { writev _ _ := .wrote 2 },
        .poll [(0, { output := true })], .dispatch { writev _ _ := .wrote 1 }]).any fun s =>
          s.aborted = none && wrote s = [[1, 2], [3]] &&
          (s.history 0).okays = [[2, 0, 0, 0], [1, 0, 0, 0]] && (s.sock 0).any fun c =>
            c.ops.isLocal && !c.closing && c.transport = some 0 && c.availableSendBytes.isSome &&
            c.packetQueue = [4, 5] := by
    decide +kernel
  simp only [Bool.and_eq_true, Option.any_eq_true, decide_eq_true_eq, Bool.not_eq_true'] at run
  obtain ⟨s₀, hs₀, hn, s, hs, ⟨⟨hl, hw⟩, ho⟩, c, hr, ⟨⟨⟨l, o⟩, ht⟩, hd⟩, hq⟩ := run
  have short : s.ShortWrites 0 := by
    intro bs hm
    have : bs ∈ wrote s := List.mem_filterMap.mpr ⟨_, hm, rfl⟩
    rw [hw] at this
    simp at this
    rcases this with rfl | rfl <;> simp
  have attached : s.Attached 0 0 c := ⟨hr, l, o, ht⟩
  refine ⟨s, c, attached, ho, hq, ?_⟩
  have h := received_eq_confirmed_add_queued (.of_exec hs₀) (by simp [hn])
    (.of_guarded staysOnline_of_isOnline hs) hl short attached hd
  simpa [hq] using h.left

end Looper

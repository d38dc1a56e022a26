import LibAdb.Machine.CloseAll

-- The requests of a client to its smart socket.

theorem Bytes.prefix_or_prefix {s : Bytes} {l₁ l₂ : String} (h₁ : (s.consumePrefix l₁).isSome)
    (h₂ : (s.consumePrefix l₂).isSome) : ascii l₁ <+: ascii l₂ ∨ ascii l₂ <+: ascii l₁ := by
  simp only [consumePrefix, Option.isSome_ite, List.isPrefixOf_iff_prefix] at h₁ h₂
  exact List.prefix_or_prefix_of_prefix h₁ h₂

namespace SmartRequest

def completed (data : Bytes) : Option Bytes :=
  let len := (unhex (data.take 4)).toNat
  if 4 ≤ data.length ∧ len ≠ 0 ∧ len ≤ Apacket.maxPayload ∧ len + 4 ≤ data.length then
    some ((data.set (len + 4) 0).drop 4)
  else none

-- A request for a transport id without the id, or without the colon behind it.
def badTransportId (service : Bytes) : Bool :=
  match service.consumePrefix "host-transport-id:" with
  | none => false
  | some rest =>
    match parseUint rest with
    | some (_, 58 :: _) => false
    | _ => true

theorem parse_of_completed (h : completed data = some service) : parse data = ofService service := by
  unfold completed at h
  unfold parse
  grind

theorem parse_of_not_completed (h : completed data = none) :
    parse data = .incomplete ∨ parse data = .malformed := by
  unfold completed at h
  unfold parse
  grind

theorem hostOr_ne_rejected : hostOr service request ≠ .rejected := by
  unfold hostOr
  split <;> simp

theorem ofService_eq_rejected_iff : ofService service = .rejected ↔ badTransportId service := by
  have exclusive : (service.consumePrefix "host-serial:").isSome →
      service.consumePrefix "host-transport-id:" = none := by
    intro h₁
    refine Option.not_isSome_iff_eq_none.mp fun h₂ => ?_
    exact absurd (Bytes.prefix_or_prefix h₁ h₂) (by decide)
  have := @hostOr_ne_rejected
  unfold ofService badTransportId
  grind

theorem parse_eq_rejected_iff :
    parse data = .rejected ↔ ∃ service, completed data = some service ∧ badTransportId service := by
  cases h : completed data
  case none => rcases parse_of_not_completed h with h' | h' <;> simp [h']
  case some service => simp [parse_of_completed h, ofService_eq_rejected_iff]

end SmartRequest

namespace Looper

variable {s : Looper} {r ss : Ref} {c d : ASocket} {data : Bytes} {os : Os}

-- What the caller of `smart_socket_enqueue` relies on: after an error the socket and its peer are
-- closed, and otherwise the peer `r` is alive.
structure EnqueueContract (ss r : Ref) (res : Looper × EnqueueResult) : Prop where
  closed : res.2 = .error → res.1.sock ss = none ∧ res.1.Closed r
  alive  : res.2 ≠ .error → res.1.Opened r

theorem close_smart (w : s.WF) (hss : s.sock ss = some d) (hd : d.ops = .smartSocket)
    (dp : d.peer = some r) : (s.close ss).sock ss = none ∧ (s.close ss).Closed r := by
  have h := releasingClose_closed hss
  have ⟨_, _, k⟩ := w.peer ss d r hss dp
  simp only [close, hss, hd]
  exact ⟨h.left, h.right r dp k.ne.symm⟩

theorem connectToService_error (w : s.WF) (hss : s.sock ss = some d) (hd : d.ops = .smartSocket)
    (dp : d.peer = some r) (h : (s.connectToService ss r service os).2 = .error) :
    (s.connectToService ss r service os).1.sock ss = none ∧
      (s.connectToService ss r service os).1.Closed r := by
  unfold connectToService at h ⊢
  split at h
  case h_1 =>
    exact close_smart (w.acts (sendStatus_acts (P := fun _ _ => True) (by simp))) hss hd dp
  case h_2 => cases h
  case h_3 => cases h

theorem smartSocketEnqueue_error (w : s.WF) (hss : s.sock ss = some d) (hd : d.ops = .smartSocket)
    (dp : d.peer = some r) (hp : SmartRequest.parse (d.smartSocketData ++ data) ≠ .rejected)
    (h : (s.smartSocketEnqueue ss data os).2 = .error) :
    (s.smartSocketEnqueue ss data os).1.sock ss = none ∧
      (s.smartSocketEnqueue ss data os).1.Closed r := by
  have ld : d.ops.isLocal = false := by simp [hd, SocketOps.isLocal]
  have hss₁ : (s.put ss { d with smartSocketData := d.smartSocketData ++ data }).sock ss =
      some { d with smartSocketData := d.smartSocketData ++ data } := by simp [sock_put hss]
  have w₁ : (s.put ss { d with smartSocketData := d.smartSocketData ++ data }).WF :=
    w.acts (.put (P := fun _ _ => True) hss (.tend ld) trivial)
  simp only [smartSocketEnqueue, hss] at h ⊢
  generalize s.put ss { d with smartSocketData := d.smartSocketData ++ data } = s₁ at hss₁ w₁ h ⊢
  have fail (text) := close_smart
    (w₁.acts (sendStatus_acts (P := fun _ _ => True) (r := r) (b := text) (by simp))) hss₁ hd dp
  simp only [dp] at h ⊢
  cases hq : SmartRequest.parse (d.smartSocketData ++ data) <;> simp only [hq] at h ⊢
  case incomplete => cases h
  case malformed => exact close_smart w₁ hss₁ hd dp
  case rejected => exact absurd hq hp
  case checkFailed => exact absurd hq SmartRequest.parse_ne_checkFailed
  case host request =>
    cases hh : os.handleHostRequest request <;> simp only [hh] at h ⊢
    case handled => exact close_smart w₁ hss₁ hd dp
    case switchedTransport => cases h
    case unhandled => exact connectToService_error w₁ hss₁ hd dp h
  case device destination =>
    cases ht : d.transport <;> simp only [ht] at h ⊢
    case none => exact fail _
    case some t =>
      split
      case isTrue ho =>
        rw [if_pos ho] at h
        cases h
      case isFalse => exact fail _

theorem smartSocketEnqueue_alive (w : s.WF) (hss : s.sock ss = some d) (hd : d.ops = .smartSocket)
    (dp : d.peer = some r) (h : (s.smartSocketEnqueue ss data os).2 ≠ .error) :
    (s.smartSocketEnqueue ss data os).1.Opened r :=
  ((smartSocketEnqueue_acts (P := fun _ _ => True) (by simp) (by simp) (by simp) (by simp) w hss hd dp
    (by simp) (by simp) (by simp) (by simp) (by simp)).right h).left

-- The callers of the smart socket can rely on its answer unless the request is for a transport id
-- and malformed: then the error is returned without closing anything.
theorem smartSocketEnqueue_contract (w : s.WF) (hss : s.sock ss = some d) (hd : d.ops = .smartSocket)
    (dp : d.peer = some r) : EnqueueContract ss r (s.smartSocketEnqueue ss data os) ↔
      ∀ service, SmartRequest.completed (d.smartSocketData ++ data) = some service →
        SmartRequest.badTransportId service = false := by
  constructor
  case mp =>
    intro k service hc
    refine Bool.eq_false_iff.mpr fun hb => ?_
    have hp : SmartRequest.parse (d.smartSocketData ++ data) = .rejected :=
      SmartRequest.parse_eq_rejected_iff.mpr ⟨service, hc, hb⟩
    have he : s.smartSocketEnqueue ss data os =
        (s.put ss { d with smartSocketData := d.smartSocketData ++ data }, .error) := by
      simp [smartSocketEnqueue, hss, dp, hp]
    have hn := (k.closed (by rw [he])).left
    simp [he, sock_put hss] at hn
  case mpr =>
    intro hb
    have hp : SmartRequest.parse (d.smartSocketData ++ data) ≠ .rejected := by
      intro hp
      obtain ⟨service, hc, hb'⟩ := SmartRequest.parse_eq_rejected_iff.mp hp
      simp [hb service hc] at hb'
    exact ⟨smartSocketEnqueue_error w hss hd dp hp, smartSocketEnqueue_alive w hss hd dp⟩

theorem smartSocketEnqueue_contract_of_version : ∃ s : Looper, Reachable (fun _ _ => True) s ∧
    EnqueueContract 1 0 (s.smartSocketEnqueue 1 (ascii "000chost:version") {}) := by
  have run : (exec next {} [.accept]).any fun s =>
      (s.sock 1).any fun d => d.ops = .smartSocket && d.peer == some 0 &&
        (SmartRequest.completed (d.smartSocketData ++ ascii "000chost:version")).all
          (!SmartRequest.badTransportId ·) := by
    decide +kernel
  simp only [Bool.and_eq_true, Option.any_eq_true, Option.all_eq_true, beq_iff_eq,
    decide_eq_true_eq, Bool.not_eq_true'] at run
  have ⟨s, hs, d, hss, ⟨hd, dp⟩, hb⟩ := run
  have reachable : Reachable (fun _ _ => True) s := .of_exec hs
  exact ⟨s, reachable, (smartSocketEnqueue_contract reachable.wf hss hd dp).mpr hb⟩

-- The client asks for the transport with the id `abc`.
theorem bad_transport_id_leaves_sockets_open : ∃ s : Looper, Reachable (fun _ _ => True) s ∧
    (s.smartSocketEnqueue 1 (ascii "0015host-transport-id:abc") {}).2 = .error ∧
    ((s.smartSocketEnqueue 1 (ascii "0015host-transport-id:abc") {}).1.sock 1).isSome ∧
    (s.smartSocketEnqueue 1 (ascii "0015host-transport-id:abc") {}).1.Opened 0 := by
  have run : (exec next {} [.accept]).any fun s =>
      let res := s.smartSocketEnqueue 1 (ascii "0015host-transport-id:abc") {}
      res.2 = .error && (res.1.sock 1).isSome &&
        (res.1.sock 0).any fun c => c.ops.isLocal && !c.closing := by
    decide +kernel
  simp only [Bool.and_eq_true, Option.any_eq_true, decide_eq_true_eq, Bool.not_eq_true'] at run
  have ⟨s, hs, ⟨he, hss⟩, c, hr, l, o⟩ := run
  exact ⟨s, .of_exec hs, he, hss, c, hr, l, o⟩

end Looper

-- The header announces the length of the service in four hexadecimal digits.
structure Announces (header service : Bytes) : Prop where
  digits : header.length = 4
  length : (unhex header).toNat = service.length
  short  : service.length ≤ 0xffff

namespace SmartRequest

variable {header service pre : Bytes}

theorem completed_eq (h : Announces header service) (h₀ : service ≠ []) :
    completed (header ++ service) = some service := by
  have ⟨digits, length, short⟩ := h
  have ht : (header ++ service).take 4 = header := List.take_left' digits
  have hd : (header ++ service).drop 4 = service := List.drop_left' digits
  have hs : (header ++ service).set (service.length + 4) 0 = header ++ service :=
    List.set_eq_of_length_le (by simp [digits, Nat.add_comm])
  have hm : Apacket.maxPayload = 1048576 := rfl
  have := List.length_pos_iff.mpr h₀
  simp only [completed, ht, length, hs, hd, List.length_append, digits]
  exact if_pos ⟨by omega, by omega, by omega, by omega⟩

-- A request for nothing is refused, and one with more behind it is taken for a longer one.
theorem completed_iff (h : Announces header service) :
    completed (header ++ service ++ following) = some service ↔ service ≠ [] ∧ following = [] := by
  constructor
  case mp =>
    have ⟨digits, length, _⟩ := h
    have ht : (header ++ (service ++ following)).take 4 = header := List.take_left' digits
    intro hc
    rw [List.append_assoc, completed] at hc
    split at hc
    case isTrue hn =>
      rw [ht, length] at hn
      have hl := congrArg List.length (Option.some.inj hc)
      simp only [List.length_drop, List.length_set, List.length_append, digits] at hl
      exact ⟨List.ne_nil_of_length_pos (Nat.pos_of_ne_zero hn.2.1),
        List.eq_nil_of_length_eq_zero (by omega)⟩
    case isFalse => cases hc
  case mpr =>
    rintro ⟨h₀, rfl⟩
    rw [List.append_nil, completed_eq h h₀]

theorem parse_incomplete (h : Announces header service) (h₀ : service ≠ [])
    (hp : pre <+: header ++ service) (hn : pre.length < (header ++ service).length) :
    parse pre = .incomplete := by
  have ⟨digits, length, short⟩ := h
  have := List.length_pos_iff.mpr h₀
  have hm : Apacket.maxPayload = 1048576 := rfl
  rw [List.length_append, digits] at hn
  unfold parse
  split
  case isTrue => rfl
  case isFalse h4 =>
    have ⟨rest, hr⟩ := hp
    have ht : pre.take 4 = header := by
      rw [← List.take_append_of_le_length (by omega : 4 ≤ pre.length), hr]
      exact List.take_left' digits
    simp only [ht, length]
    rw [if_neg (by simp [h₀, hm]; omega), if_pos (by omega)]

end SmartRequest

abbrev Block := Bytes × Os

def Block.bytes (blocks : List Block) : Bytes :=
  (blocks.map (·.1)).flatten

namespace Looper

variable {s : Looper} {r ss : Ref} {c d : ASocket} {header service pre tail : Bytes} {os : Os}
  {blocks rest : List Block}

-- Hands blocks to the smart socket until it has its request. The result is the outcome of the last
-- call and the blocks that are left.
def deliver (s : Looper) (ss : Ref) : List Block → Option ((Looper × EnqueueResult) × List Block)
  | [] => none
  | (block, os) :: rest =>
    match s.sock ss with
    | none => none
    | some d =>
      if SmartRequest.parse (d.smartSocketData ++ block) = .incomplete then
        (s.smartSocketEnqueue ss block os).1.deliver ss rest
      else some (s.smartSocketEnqueue ss block os, rest)

-- The request with which the blocks end, if a smart socket has collected `pre` before.
def collect (pre : Bytes) : List Block → Option (Bytes × Os × List Block)
  | [] => none
  | (block, os) :: rest =>
    if SmartRequest.parse (pre ++ block) = .incomplete then collect (pre ++ block) rest
    else some (pre ++ block, os, rest)

theorem smartSocketEnqueue_collected (hss : s.sock ss = some d) (h₀ : d.smartSocketData = []) :
    (s.put ss { d with smartSocketData := pre }).smartSocketEnqueue ss data os =
      s.smartSocketEnqueue ss (pre ++ data) os := by
  have hss' : (s.put ss { d with smartSocketData := pre }).sock ss =
      some { d with smartSocketData := pre } := by simp [sock_put hss]
  simp only [smartSocketEnqueue, hss, hss', put_put, h₀, List.nil_append]

theorem smartSocketEnqueue_incomplete (hss : s.sock ss = some d) (h₀ : d.smartSocketData = [])
    (hp : SmartRequest.parse data = .incomplete) :
    (s.smartSocketEnqueue ss data os).1 = s.put ss { d with smartSocketData := data } := by
  simp only [smartSocketEnqueue, hss, h₀, List.nil_append, hp]
  split <;> rfl

theorem deliver_eq (pre : Bytes) (blocks : List Block) (hss : s.sock ss = some d) (h₀ : d.smartSocketData = []) :
    (s.put ss { d with smartSocketData := pre }).deliver ss blocks =
      (collect pre blocks).map fun (data, os, rest) => (s.smartSocketEnqueue ss data os, rest) := by
  induction blocks generalizing pre
  case nil => rfl
  case cons b rest ih =>
    have hss' : (s.put ss { d with smartSocketData := pre }).sock ss =
        some { d with smartSocketData := pre } := by simp [sock_put hss]
    simp only [deliver, collect, hss']
    split
    case isTrue hp =>
      rw [smartSocketEnqueue_collected hss h₀, smartSocketEnqueue_incomplete hss h₀ hp]
      exact ih _
    case isFalse => simp [smartSocketEnqueue_collected hss h₀]

end Looper

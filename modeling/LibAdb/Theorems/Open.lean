import LibAdb.Execution.Session
import LibAdb.Machine.Refinement

namespace Looper

variable {s : Looper} {t : Tid} {service : Bytes}

-- The service string with its NUL fits the maximum payload, it is not a `reverse:` request that the
-- bookkeeping does not know, and there is an id left for the socket.
def CanOpen (s : Looper) (t : Tid) (service : Bytes) : Prop :=
  ((s.transports t).updateReverseConfig service).isSome ∧
    service.length + 1 ≤ min Apacket.maxPayload (s.transports t).maxPayload ∧ ¬s.IdsExhausted

-- One `OPEN` with the whole service string goes to the transport, and the process goes on.
def OpensService (s : Looper) (t : Tid) (service : Bytes) (s' : Looper) : Prop :=
  s'.aborted = none ∧ ∃ src p, s'.log = s.log ++ [.sent src t p] ∧ p.kind = some .open ∧
    p.payload = service ++ [0] ∧ p.dataLength.toNat = p.payload.length ∧
    p.payload.length ≤ min Apacket.maxPayload (s.transports t).maxPayload

end Looper

theorem ATransport.maxPayload_updateReverseConfig {tr tr' : ATransport}
    (h : tr.updateReverseConfig service = some tr') : tr'.maxPayload = tr.maxPayload := by
  unfold updateReverseConfig at h
  grind [reverseInsert, reverseErase]

namespace Looper

variable {s : Looper} {t : Tid} {service : Bytes}

theorem aborted_createLocalSocket : (s.createLocalSocket (some t)).1.aborted =
    if s.localSocketNextId + 1 = 0 then some (s.aborted.getD .idOverflow) else s.aborted := by
  simp only [createLocalSocket, installLocalSocket]
  split <;> rfl

theorem log_createLocalSocket : (s.createLocalSocket (some t)).1.log = s.log := by
  simp only [createLocalSocket, installLocalSocket]
  split <;> rfl

theorem openService_unhandled (h : (s.transports t).updateReverseConfig service = none) :
    s.openService t service = (s.createLocalSocket (some t)).1.abort .unhandledReverse := by
  have hr : (s.createLocalSocket (some t)).1.sock (s.createLocalSocket (some t)).2 =
      some (s.newLocalSocket (some t)) := sock_newLocalSocket
  have ht : (s.newLocalSocket (some t)).transport = some t := rfl
  simp [openService, connectToRemote, hr, ht, h]

theorem openService_handled (h : (s.transports t).updateReverseConfig service = some tr) :
    s.openService t service =
      if (UInt32.ofNat (service.length + 1)).toNat ≤
          min Apacket.maxPayload (s.transports t).maxPayload then
        (((s.createLocalSocket (some t)).1.setTransport t tr).put s.sockets.next
          ((s.newLocalSocket (some t)).opening tr)).sendPacket (some s.sockets.next) t
            (openPacket (s.newLocalSocket (some t)) tr s.delayedAckBytes service)
      else ((s.createLocalSocket (some t)).1.setTransport t tr).abort .openTooLong := by
  have hr : (s.createLocalSocket (some t)).1.sock (s.createLocalSocket (some t)).2 =
      some (s.newLocalSocket (some t)) := sock_newLocalSocket
  have ht : (s.newLocalSocket (some t)).transport = some t := rfl
  have hl (w) : (openPacket (s.newLocalSocket (some t)) tr w service).dataLength =
      UInt32.ofNat (service.length + 1) := by simp [openPacket, Apacket.make]
  have hm : ((s.createLocalSocket (some t)).1.setTransport t tr).getMaxPayload
      (s.newLocalSocket (some t)) = min Apacket.maxPayload (s.transports t).maxPayload := by
    rw [getMaxPayload_eq rfl rfl, ← ATransport.maxPayload_updateReverseConfig h]
    simp [setTransport]
  have hw : ((s.createLocalSocket (some t)).1.setTransport t tr).delayedAckBytes =
      s.delayedAckBytes := window_createLocalSocket
  simp only [openService, connectToRemote, hr, ht, transports_createLocalSocket, h, hl, hm, hw]
  rfl

theorem aborted_abort : (s.abort x).aborted ≠ none := by
  simp [abort]

-- A service string whose length does not fit `data_length` is cut off there, so that the check of
-- the length may pass without the packet fitting.
theorem opensService_iff (ha : s.aborted = none) :
    s.OpensService t service (s.openService t service) ↔ s.CanOpen t service := by
  unfold OpensService CanOpen
  cases h : (s.transports t).updateReverseConfig service
  case none => simp [openService_unhandled h, aborted_abort]
  case some tr =>
    rw [openService_handled h]
    split
    case isFalse hl =>
      have : ¬service.length + 1 ≤ min Apacket.maxPayload (s.transports t).maxPayload :=
        fun hle => hl <| Nat.le_trans (Nat.mod_le _ _) hle
      simp [aborted_abort, this]
    case isTrue hl =>
      have hab : (((s.createLocalSocket (some t)).1.setTransport t tr).put s.sockets.next
          ((s.newLocalSocket (some t)).opening tr)).aborted = none ↔ ¬s.IdsExhausted := by
        change (s.createLocalSocket (some t)).1.aborted = none ↔ _
        rw [aborted_createLocalSocket, ha, IdsExhausted]
        split <;> simp_all
      have hlog : (((s.createLocalSocket (some t)).1.setTransport t tr).put s.sockets.next
          ((s.newLocalSocket (some t)).opening tr)).log = s.log := log_createLocalSocket
      generalize ((s.createLocalSocket (some t)).1.setTransport t tr).put s.sockets.next
        ((s.newLocalSocket (some t)).opening tr) = s₁ at hab hlog ⊢
      constructor
      case mp =>
        rintro ⟨hnone, src, p, hp, hk, hpay, _, hle⟩
        refine ⟨rfl, ?_, hab.mp hnone⟩
        simpa [hpay] using hle
      case mpr =>
        rintro ⟨_, hle, hi⟩
        refine ⟨hab.mpr hi, some s.sockets.next, _, by rw [sendPacket, emit, hlog], ?_, rfl, ?_, ?_⟩
        · exact Command.ofWord_word .open
        · have hmax : Apacket.maxPayload < 2 ^ 32 := by decide
          simp only [openPacket, Apacket.make, UInt32.toNat_ofNat', List.length_append,
            List.length_singleton]
          omega
        · simpa [openPacket, Apacket.make] using hle

end Looper

def SessionStart.OpensOrFails (s : Looper) (service : Bytes) : SessionStart → Prop
  | .failed _     => True
  | .started t s' => s.OpensService t service s'

def ServiceCall.Starts (caller : Caller) (t : Tid) : ServiceCall → Prop
  | .start _ => caller.started = some t ∧ caller.socketpair
  | _        => caller.created.isSome ∧ caller.started = some t ∧ caller.socketpair

theorem AdbSession.start_iff (ha : s.aborted = none) :
    (start s caller service).OpensOrFails s service ↔
      ∀ t, caller.started = some t ∧ caller.socketpair → s.CanOpen t service := by
  unfold start
  split
  case h_1 h => simp [SessionStart.OpensOrFails, h]
  case h_2 t h =>
    split
    case isTrue hp => simp [SessionStart.OpensOrFails, Looper.opensService_iff ha, h, hp]
    case isFalse hp => simp [SessionStart.OpensOrFails, hp]

-- Whether a call opens the service, or reports that it cannot, depends on the service string and the
-- state of the looper.
theorem service_opens_or_fails_iff (s : Looper) (caller : Caller) (call : ServiceCall)
    (ha : s.aborted = none) :
    (call.run s caller).OpensOrFails s (call.service caller) ↔
      ∀ t, call.Starts caller t → s.CanOpen t (call.service caller) := by
  have session (service) : (AdbDevice.createSession s caller service).OpensOrFails s service ↔
      ∀ t, caller.created.isSome ∧ caller.started = some t ∧ caller.socketpair →
        s.CanOpen t service := by
    unfold AdbDevice.createSession
    split
    case h_1 h => simp [SessionStart.OpensOrFails, h]
    case h_2 t h => simp [AdbSession.start_iff ha, h]
  cases call
  case start service => exact AdbSession.start_iff ha
  case connectServiceSync service => exact session _
  case shell command forceRaw => exact session _

theorem service_opens_for_shell :
    let call := ServiceCall.shell (ascii "ls") false
    let caller : Caller := { created := some 0, started := some 0 }
    ({} : Looper).CanOpen 0 (ascii "shell:ls") ∧
      (call.run {} caller).OpensOrFails {} (ascii "shell:ls") := by
  have can : ({} : Looper).CanOpen 0 (ascii "shell:ls") :=
    ⟨by decide +kernel, by decide +kernel, by decide⟩
  have h := service_opens_or_fails_iff {} { created := some 0, started := some 0 }
    (.shell (ascii "ls") false) rfl
  refine ⟨can, h.mpr fun t ht => ?_⟩
  have ⟨_, ht, _⟩ := ht
  cases ht
  exact can

-- A `reverse:` request that is not one of the known ones ends the process.
theorem unhandled_reverse_aborts :
    let call := ServiceCall.connectServiceSync (ascii "reverse:x")
    let caller : Caller := { created := some 0, started := some 0 }
    (({} : Looper).openService 0 (ascii "reverse:x")).aborted = some .unhandledReverse ∧
      ¬(call.run {} caller).OpensOrFails {} (ascii "reverse:x") := by
  have aborts : (({} : Looper).openService 0 (ascii "reverse:x")).aborted =
      some .unhandledReverse := by decide +kernel
  refine ⟨aborts, fun h => ?_⟩
  have h : (({} : Looper).openService 0 (ascii "reverse:x")).aborted = none := h.left
  cases aborts.symm.trans h

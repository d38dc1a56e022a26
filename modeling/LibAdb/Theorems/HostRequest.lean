import LibAdb.Execution.HostRequest

namespace HostServer

variable {h : HostServer} {q : HostRequest} {l l' : List HostAction} {reason : Bytes}

-- After a failure the client is sent nothing more.
def Final : List HostAction → Prop
  | [] => True
  | .sendFail _ :: rest => ∀ a ∈ rest, ¬a.isReply
  | _ :: rest => Final rest

def isFail : HostAction → Bool
  | .sendFail _ => true
  | _ => false

theorem final_cons (ha : isFail a = false) : Final (a :: l) ↔ Final l := by
  cases a
  case sendFail => cases ha
  all_goals rfl

theorem final_fail : Final [.sendFail reason] := by
  intro a ha
  cases ha

theorem final_of_forall (h : ∀ a ∈ l, isFail a = false) : Final l := by
  induction l
  case nil => trivial
  case cons a l hi =>
    rw [final_cons (h a (.head _))]
    exact hi fun b hb => h b (.tail _ hb)

theorem final_append (h : ∀ a ∈ l, isFail a = false) : Final (l ++ l') ↔ Final l' := by
  induction l
  case nil => rfl
  case cons a l hi =>
    rw [List.cons_append, final_cons (h a (.head _))]
    exact hi fun b hb => h b (.tail _ hb)

theorem isFail_map {f : α → HostAction} (hf : ∀ x, isFail (f x) = false) (xs : List α) :
    ∀ a ∈ xs.map f, isFail a = false := by
  intro a ha
  obtain ⟨x, -, rfl⟩ := List.mem_map.mp ha
  exact hf x

theorem final_okayText (text : Bytes) : Final (okayText text) :=
  final_of_forall (by simp [okayText, isFail])

theorem final_reportOn (text : ListedTransport → Bytes) : Final (h.reportOn q text) := by
  rw [reportOn]
  cases h.transportOr q false
  case ok => exact final_okayText _
  case error => exact final_fail

theorem final_act (ha : isFail a = false) (text : Bytes) : Final (a :: okayText text) :=
  (final_cons ha).mpr (final_okayText text)

theorem final_disconnect (address : Bytes) : Final (h.disconnect address) := by
  simp only [disconnect]
  split
  case isTrue => exact final_act (by rfl) _
  case isFalse =>
    cases h.findTransport address
    case some => exact final_act (by rfl) _
    case none =>
      simp only
      generalize (if (ascii "vsock:").isPrefixOf address ||
        (ascii "localfilesystem:").isPrefixOf address then some address else
        (parseNetAddress address 5555).map fun x => canonicalAddress address x.1 x.2) = serial
      cases serial
      case none => exact final_fail
      case some serial =>
        simp only
        cases h.findTransport serial
        case none => exact final_fail
        case some => exact final_act (by rfl) _

theorem final_perform (action : ListedTransport → HostAction)
    (failure : ListedTransport → Option Bytes) (done : Bytes) (ha : ∀ t, isFail (action t) = false) :
    Final (h.perform q action failure done) := by
  rw [perform]
  cases h.transportOr q true
  case error => exact final_fail
  case ok t =>
    simp only
    rw [final_cons (ha t)]
    cases failure t
    case none => exact final_okayText _
    case some => exact final_fail

def Answers (r : Option Handled) : Prop :=
  ∀ actions result, r = some (actions, result) → Final actions ∧ result ≠ .unhandled

namespace Answers

theorem none : Answers none := by
  rintro _ _ ⟨⟩

theorem handled (hl : Final l) : Answers (some (l, .handled)) := by
  rintro _ _ ⟨⟩
  exact ⟨hl, HostRequestResult.noConfusion⟩

theorem ite {p : Prop} [Decidable p] {r : Option Handled} (hr : Answers r) :
    Answers (if p then r else .none) := by
  split
  case isTrue => exact hr
  case isFalse => exact none

theorem map {o : Option α} {f : α → List HostAction} (hf : ∀ x, Final (f x)) :
    Answers (o.map fun x => (f x, .handled)) := by
  cases o
  case none => exact none
  case some x => exact handled (hf x)

theorem handleSelection : Answers (h.handleSelection q) := by
  rw [HostServer.handleSelection]
  refine ite ?_
  cases q.selection
  case none => exact handled final_fail
  case some r =>
    simp only
    cases h.acquire r.1
    case error => exact handled final_fail
    case ok t =>
      rintro _ _ ⟨⟩
      refine ⟨final_of_forall ?_, HostRequestResult.noConfusion⟩
      cases r.2
      case false => simp [isFail]
      case true => simp [isFail]

theorem handleReconnectOffline : Answers (h.handleReconnectOffline q) := by
  refine ite (handled ((final_append ?_).mpr (final_okayText _)))
  exact isFail_map (fun _ => rfl) _

theorem handleReconnect : Answers (h.handleReconnect q) := by
  refine ite ?_
  cases h.transportOr q true
  case error => exact handled (final_okayText _)
  case ok => exact handled (final_act (by rfl) _)

theorem handleEmulator : Answers (HostServer.handleEmulator q) := by
  refine map fun rest => final_of_forall ?_
  exact isFail_map (fun _ => rfl) _

theorem handleForward : Answers (h.handleForward q) := by
  refine map fun reply => ?_
  cases reply.1
  case listeners => exact final_okayText _
  case okay port =>
    refine final_of_forall ?_
    simp only
    split
    case isTrue => simp [isFail]
    case isFalse => simp [isFail]
  case fail => exact final_fail

end Answers

theorem answers_handlers : ∀ r ∈ h.handlers q, Answers r := by
  simp only [handlers, List.forall_mem_cons, List.not_mem_nil, IsEmpty.forall_iff, implies_true,
    and_true]
  refine ⟨.handleSelection, .ite (.handled (final_okayText _)), .handleReconnectOffline,
    .ite (.handled (final_reportOn _)), .ite (.handled (final_okayText _)),
    .map final_disconnect, .ite (.handled (final_okayText _)),
    .ite (.handled (final_reportOn _)), .ite (.handled (final_reportOn _)),
    .ite (.handled (final_reportOn _)), .handleEmulator, .handleReconnect, ?_, ?_, .handleForward⟩
  case refine_1 => exact .ite (.handled (final_perform _ _ _ fun _ => rfl))
  case refine_2 => exact .ite (.handled (final_perform _ _ _ fun _ => rfl))

theorem findSome_handlers (hr : ((h.handlers q).findSome? id).getD ([], .unhandled) = (l, result)) :
    Final l ∧ (result = .unhandled → l = []) := by
  cases found : (h.handlers q).findSome? id
  case none =>
    rw [found] at hr
    cases hr
    exact ⟨trivial, fun _ => rfl⟩
  case some r =>
    rw [found] at hr
    obtain ⟨r', hm, answered⟩ := List.exists_of_findSome?_eq_some found
    have ⟨final, handled⟩ := answers_handlers r' hm l result (answered.trans (congrArg some hr))
    exact ⟨final, fun unhandled => absurd unhandled handled⟩

theorem final_waitLoop (r : TransportRequest) (states : List WaitState) (rounds : List WaitRound) :
    Final (h.waitLoop r states rounds) := by
  induction rounds
  case nil => trivial
  case cons round rounds hi =>
    rw [waitLoop]
    split
    case isTrue => exact final_fail
    case isFalse =>
      split
      case isTrue => exact final_of_forall (by simp [isFail])
      case isFalse =>
        split
        case isTrue => exact final_fail
        case isFalse => exact hi

theorem final_waitService (spec : Bytes) : Final (h.waitService q spec) := by
  rw [waitService]
  generalize spec.splitOn 45 = pieces
  obtain _ | ⟨type, _ | ⟨first, rest⟩⟩ := pieces
  case nil => exact final_fail
  case cons.nil => exact final_fail
  case cons.cons =>
    simp only
    cases waitType type
    case none => exact final_fail
    case some =>
      cases (first :: rest).mapM WaitState.parse
      case none => exact final_fail
      case some => exact final_waitLoop _ _ _

theorem final_connectToService : Final (h.connectToService q) := by
  rw [connectToService]
  cases hostServiceToSocket q.service
  case none => exact final_fail
  case deviceTracker =>
    simp only
    rw [final_cons rfl]
    exact final_of_forall (isFail_map (fun _ => rfl) _)
  case localSocket =>
    simp only
    rw [final_cons rfl, serviceOutput]
    cases q.service.consumePrefix "wait-for-"
    case some spec => exact final_waitService spec
    case none =>
      cases q.service.consumePrefix "connect:"
      case none => exact final_fail
      case some => exact final_of_forall (by simp [isFail])

theorem findSome_kill (hk : q.service = ascii "kill") : (h.handlers q).findSome? id = none := by
  have other {s : Bytes} (hs : ascii "kill" ≠ s) : ¬q.service = s := fun he => hs (hk.symm.trans he)
  rw [List.findSome?_eq_none_iff]
  simp only [handlers, List.forall_mem_cons, List.not_mem_nil, IsEmpty.forall_iff, implies_true,
    and_true, id_eq]
  refine ⟨?_, ?_, if_neg (other (by decide)), if_neg (other (by decide)),
    if_neg (other (by decide)), ?_, if_neg (other (by decide)), if_neg (other (by decide)),
    if_neg (other (by decide)), if_neg (other (by decide)), ?_, if_neg (other (by decide)),
    if_neg (other (by decide)), if_neg (other (by decide)), ?_⟩
  · rw [handleSelection, hk]
    rfl
  · rw [handleDevices, hk]
    rfl
  · rw [handleDisconnect, hk]
    rfl
  · rw [handleEmulator, hk]
    rfl
  · rw [handleForward, hk]
    rfl

theorem serve_kill (hk : q.service = ascii "kill") (hr : h.rejectKillServer = true) :
    h.serve q = [.sendFail (ascii "kill-server rejected by remote server"),
      .sendFail (ascii "unknown host service 'kill'")] := by
  rw [serve, handleHostRequest, findSome_kill hk, connectToService, hk, hr]
  rfl

theorem serve_final_iff (h : HostServer) (q : HostRequest) :
    Final (h.serve q) ↔ ¬(q.service = ascii "kill" ∧ h.rejectKillServer) := by
  by_cases hk : q.service = ascii "kill"
  case pos =>
    cases hr : h.rejectKillServer
    case true =>
      rw [serve_kill hk hr]
      refine iff_of_false ?_ (not_not_intro ⟨hk, rfl⟩)
      intro final
      exact final _ (.head _) rfl
    case false =>
      refine iff_of_true ?_ fun both => Bool.false_ne_true both.2
      rw [serve, handleHostRequest, hk, hr]
      exact final_of_forall (by simp [isFail])
  case neg =>
    refine iff_of_true ?_ fun both => hk both.1
    generalize hr : ((h.handlers q).findSome? id).getD ([], .unhandled) = handled
    obtain ⟨actions, result⟩ := handled
    obtain ⟨final, unhandled⟩ := findSome_handlers hr
    have served : h.handleHostRequest q = (actions, some result) := by
      rw [handleHostRequest, hr]
      simp [hk]
    rw [serve, served]
    simp only
    split
    case isTrue known =>
      rw [unhandled (Option.some.inj known)]
      exact final_connectToService
    case isFalse => rwa [List.append_nil]

theorem serve_rejected_kill : serve { rejectKillServer := true } { service := ascii "kill" } =
    [.sendFail (ascii "kill-server rejected by remote server"),
      .sendFail (ascii "unknown host service 'kill'")] :=
  serve_kill rfl rfl

end HostServer

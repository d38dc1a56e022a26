import LibAdb.Machine.CloseAll
import LibAdb.Machine.Server

-- What a transport leaves behind when it goes offline.

namespace Server

variable {v v' : Server} {a : Action} {t : Tid} {os : Os}

-- The transport is not online any more, none of its sockets is left, and its callbacks have been run,
-- which removes the listeners, and cleared.
structure CleanedUp (v : Server) (t : Tid) (v' : Server) : Prop where
  online  : (v'.looper.transports t).online = false
  sockets : ∀ r ∈ v'.looper.localSocketList, v'.looper.belongs t r = false
  run     : ∀ l ∈ v'.listeners, l.id ∉ v.disconnects t
  cleared : v'.disconnects t = []

-- The next task handles an `AUTH` packet of the transport that is not a token.
def Disowns (v : Server) (t : Tid) : Action → Prop
  | .run _ => ∃ p rest, v.tasks = .handlePacket t p :: rest ∧ p.kind = some .auth ∧
      (v.looper.transports t).useTls = false ∧ p.arg0 ≠ adbAuthToken
  | _ => False

theorem handleOffline_cleans_up (w : v.looper.WF)
    (h : (v.looper.transports t).connectionState ≠ .offline) : v.CleanedUp t (v.handleOffline t) := by
  have hl := looper_handleOffline (v := v) (t := t)
  constructor
  case online => rw [hl, Looper.transports_handleOffline w h]
  case sockets =>
    rw [hl]
    exact fun r hr => Looper.handleOffline_complete w h hr
  case run =>
    simp only [handleOffline, if_neg h, runDisconnects_eq, setDisconnects]
    intro l hl
    simpa using (List.mem_filter.mp hl).right
  case cleared =>
    simp only [handleOffline, if_neg h, runDisconnects_eq, setDisconnects]
    simp

theorem transportDestroy_cleaned_up (k : v.CleanedUp t v') : v.CleanedUp t (v'.transportDestroy t) := by
  have hs := (stop_signals (v := v') (t := t)).eq
  have ⟨online, sockets, run, cleared⟩ := k
  simp only [transportDestroy]
  split
  case isTrue =>
    rw [hs]
    exact ⟨online, sockets, run, cleared⟩
  case isFalse =>
    rw [hs]
    exact ⟨by simpa [Looper.setTransport] using online, sockets, run, cleared⟩

theorem handlePacket_offline (hk : p.kind = some .cnxn ∨ p.kind = some .auth)
    (after : ((v.handlePacket t p os).looper.transports t).connectionState = .offline) :
    v.handlePacket t p os = v ∨
      p.kind = some .auth ∧ (v.looper.transports t).useTls = false ∧ p.arg0 ≠ adbAuthToken := by
  rcases hk with hk | hk <;> simp only [handlePacket, hk] at after ⊢
  · have := online_of_handleNewConnection (v := v) (t := t) (p := p.toApacket)
    simp [after, connectionStateIsOnline] at this
  · by_cases hu : (v.looper.transports t).useTls
    case pos => exact .inl (by simp [handleAuth, hu])
    case neg =>
      have hu := Bool.eq_false_iff.mpr hu
      refine .inr ⟨trivial, hu, fun hp => ?_⟩
      rw [looper_handleAuth] at after
      rcases Looper.state_of_token (o := os) hu hp with hs | hs <;> cases hs.symm.trans after

-- A transport goes offline with an error, which cleans up, or with an `AUTH` packet, which does not.
theorem offline_transition_cleans_up (h : Reachable (fun _ _ => True) v) (hs : v.next a = some v')
    (online : (v.looper.transports t).online)
    (before : (v.looper.transports t).connectionState ≠ .offline)
    (after : (v'.looper.transports t).connectionState = .offline) :
    v.CleanedUp t v' ↔ ¬v.Disowns t a := by
  rcases link_next (t := t) h.wf hs with he | hr
  · exact absurd ((congrArg (·.1) he).symm.trans after) before
  · cases hr
    case error rest os ht =>
      have k := handleOffline_cleans_up (v := { v with tasks := rest }) h.wf before
      exact iff_of_true (transportDestroy_cleaned_up { k with }) (by simp [Disowns, ht])
    case packet rest p os ht hk =>
      rcases handlePacket_offline (v := { v with tasks := rest }) hk after with he | ⟨hk, hu, hp⟩
      · exact absurd (by simpa only [he] using after) before
      · simp only [handlePacket, hk, handleAuth_disowns (v := { v with tasks := rest }) hu hp]
        refine iff_of_false (fun k => ?_) (not_not.mpr ⟨p, rest, ht, hk, hu, hp⟩)
        have := k.online
        simp [Looper.setTransport, online] at this

-- The connection of a device with a forwarded port and an open stream is lost.
theorem offline_transition_cleans_up_after_error : ∃ v v' : Server, v.next (.run {}) = some v' ∧
    v.looper.localSocketList = [0] ∧ v.looper.belongs 0 0 ∧ v.disconnects 0 = [0] ∧
    v.CleanedUp 0 v' := by
  have run : (exec next {} [.connect (ascii "a:1"), .connectDevice 0 (some (ascii "a:1")), .run {},
      .read 0 .connect, .run {}, .installListener (ascii "tcp:1") (ascii "tcp:2") 0 false
        (some (ascii "tcp:1")), .acceptListener 0, .fail 0]).any fun v =>
      v.looper.localSocketList = [0] && v.looper.belongs 0 0 && v.disconnects 0 = [0] &&
      (v.looper.transports 0).online && (v.looper.transports 0).connectionState ≠ .offline &&
      v.tasks.head?.any (· matches .handleError 0) && (v.next (.run {})).any fun v' =>
          (v'.looper.transports 0).connectionState = .offline := by
    decide +kernel
  simp only [Bool.and_eq_true, Option.any_eq_true, decide_eq_true_eq, ne_eq, decide_not,
    Bool.not_eq_true', decide_eq_false_iff_not] at run
  obtain ⟨v, hv, ⟨⟨⟨⟨⟨list, belongs⟩, disconnects⟩, online⟩, before⟩, task⟩, v', hs, after⟩ := run
  refine ⟨v, v', hs, list, belongs, disconnects, ?_⟩
  refine (offline_transition_cleans_up (.of_exec hv) hs online before after).mpr ?_
  rintro ⟨p, rest, ht, _⟩
  simp [ht] at task

-- After an `AUTH` packet the transport is offline, but it still counts as online, its stream is open
-- and the port is forwarded.
theorem auth_skips_cleanup : ∃ v v' : Server, Reachable (fun _ _ => True) v ∧
    v.next (.run {}) = some v' ∧ (v.looper.transports 0).connectionState = .device ∧
    (v'.looper.transports 0).connectionState = .offline ∧ (v'.looper.transports 0).online ∧
    v'.looper.localSocketList = [0] ∧ v'.looper.belongs 0 0 ∧ v'.disconnects 0 = [0] ∧
    ¬v.CleanedUp 0 v' := by
  have ⟨v, hv, before, v', hs, after, online, rest⟩ : ∃ v, Reachable (fun _ _ => True) v ∧
      (v.looper.transports 0).connectionState = .device ∧ ∃ v' ∈ v.next (.run {}),
        (v'.looper.transports 0).connectionState = .offline ∧ (v'.looper.transports 0).online ∧
        v'.looper.localSocketList = [0] ∧ v'.looper.belongs 0 0 ∧ v'.disconnects 0 = [0] :=
    Reach.exists_of_exec [.connect (ascii "a:1"), .connectDevice 0 (some (ascii "a:1")), .run {},
      .read 0 .connect, .run {}, .installListener (ascii "tcp:1") (ascii "tcp:2") 0 false
        (some (ascii "tcp:1")), .acceptListener 0,
      .read 0 (.ofCommand .auth 9 0 [] (by decide))] (by decide +kernel)
  refine ⟨v, v', hv, hs, before, after, online, rest.1, rest.2.1, rest.2.2, fun k => ?_⟩
  exact Bool.false_ne_true (k.online.symm.trans online)

end Server

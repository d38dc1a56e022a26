import LibAdb.Execution.Listeners
import LibAdb.Machine.Decimal
import LibAdb.Machine.Listeners
import LibAdb.Theorems.Reverse

-- The table of listeners: what is told to them when a transport goes offline, and the names that they
-- are removed by.

namespace Server

variable {v : Server} {l l' : AListener} {t : Tid}

theorem start_registered : (start o).Registered := by
  refine ⟨?_, ?_, fun _ => .nil, ?_⟩ <;> cases o <;> simp [start, smartSocket]

theorem Registered.listeners_runDisconnects (k : v.Registered) :
    (v.runDisconnects t).listeners = v.listeners.filter (·.transport ≠ some t) := by
  rw [runDisconnects_eq]
  refine List.filter_congr fun l hl => ?_
  rw [decide_eq_decide, not_iff_not, k.callbacks]
  constructor
  · intro ⟨l', hl', he, ht⟩
    exact k.unique hl' hl he ▸ ht
  · exact fun ht => ⟨l, hl, rfl, ht⟩

-- Nothing is said about callbacks of listeners that were removed but that there are none: no two
-- listeners ever get the same identifier.
theorem listeners_told (h : Runs (fun _ _ => True) (start name) v) :
    (∀ l ∈ v.listeners, ∀ t, l.transport = some t → (v.disconnects t).count l.id = 1) ∧
    (∀ t, ∀ id ∈ v.disconnects t, ∃ l ∈ v.listeners, l.id = id ∧ l.transport = some t) ∧
    (v.listeners.map (·.id)).Nodup ∧ (∀ l ∈ v.listeners, l.id < v.nextListener) ∧
    ∀ t, (v.runDisconnects t).listeners = v.listeners.filter (·.transport ≠ some t) ∧
      ∀ u, (v.runDisconnects t).disconnects u = if u = t then [] else v.disconnects u := by
  have k := Runs.registered h start_registered
  refine ⟨fun l hl t ht => ?_, fun t id => (k.callbacks t id).mp, k.ids, k.fresh, fun t => ?_⟩
  · exact List.count_eq_one_of_mem (k.once t) (k.subscribed l hl t ht)
  · refine ⟨k.listeners_runDisconnects, fun u => ?_⟩
    rw [runDisconnects_eq]
    rfl

-- Two listeners of a device, one of which is moved to another device and back.
theorem listeners_told_moved : ∃ v : Server, v.disconnects 0 = [2, 1] ∧
    (v.runDisconnects 0).listeners = [smartSocket (ascii "tcp:5037")] := by
  have ⟨v, hv, disconnects, listeners⟩ : ∃ v, Runs (fun _ _ => True)
      (start (some (ascii "tcp:5037"))) v ∧ v.disconnects 0 = [2, 1] ∧
      v.listeners = [smartSocket (ascii "tcp:5037"), ⟨1, ascii "tcp:1", ascii "tcp:5", some 0⟩,
        ⟨2, ascii "tcp:3", ascii "tcp:4", some 0⟩] :=
    Reach.exists_of_exec [.connect (ascii "a:1"),
      .connectDevice 0 (some (ascii "a:1")), .connect (ascii "b:1"),
      .connectDevice 1 (some (ascii "b:1")),
      .installListener (ascii "tcp:1") (ascii "tcp:2") 0 false (some (ascii "tcp:1")),
      .installListener (ascii "tcp:3") (ascii "tcp:4") 0 false (some (ascii "tcp:3")),
      .installListener (ascii "tcp:1") (ascii "tcp:2") 1 false none,
      .installListener (ascii "tcp:1") (ascii "tcp:5") 0 false none] (by decide +kernel)
  have ⟨_, _, _, _, told⟩ := listeners_told hv
  refine ⟨v, disconnects, ?_⟩
  rw [(told 0).left, listeners]
  decide

theorem find_name (hd : (v.listeners.map (·.localName)).Nodup) (hl : l ∈ v.listeners) :
    v.listeners.find? (·.localName == l.localName) = some l := by
  cases hf : v.listeners.find? (·.localName == l.localName)
  case none => simpa using List.find?_eq_none.mp hf l hl
  case some l' =>
    have name : l'.localName = l.localName := by simpa using List.find?_some hf
    rw [List.inj_on_of_nodup_map hd (List.mem_of_find?_eq_some hf) hl name]

theorem Registered.listeners_eraseListener (k : v.Registered) (hl : l ∈ v.listeners) :
    (v.eraseListener l).listeners = v.listeners.filter (· ≠ l) := by
  rw [Server.listeners_eraseListener]
  refine List.filter_congr fun l' hl' => ?_
  rw [Bool.eq_iff_iff, bne_iff_ne, decide_eq_true_eq]
  exact not_congr ⟨k.unique hl' hl, congrArg _⟩

theorem listeners_erase_all (ls : List AListener) (v : Server) :
    (ls.foldl eraseListener v).listeners = v.listeners.filter (·.id ∉ ls.map (·.id)) := by
  induction ls generalizing v
  case nil => simp
  case cons l ls ih =>
    rw [List.foldl_cons, ih, Server.listeners_eraseListener, List.filter_filter]
    refine List.filter_congr fun l' _ => ?_
    grind

theorem Registered.listeners_removeAll (k : v.Registered) :
    v.removeAllListeners.listeners = v.listeners.filter (·.connectTo.head? == some 42) := by
  rw [removeAllListeners, listeners_erase_all]
  refine List.filter_congr fun l hl => ?_
  rw [Bool.eq_iff_iff, decide_eq_true_eq, beq_iff_eq, List.mem_map]
  constructor
  · intro h
    by_contra hc
    exact h ⟨l, List.mem_filter.mpr ⟨hl, bne_iff_ne.mpr hc⟩, rfl⟩
  · rintro h ⟨l', hl', he⟩
    have ⟨hm, hn⟩ := List.mem_filter.mp hl'
    exact bne_iff_ne.mp hn (k.unique hm hl he ▸ h)

end Server

namespace ForwardRequest

theorem parse_killForward (name : Bytes) :
    parse (ascii "killforward:" ++ name) = some (killForward name) := by
  have other (s : Bytes) (hs : s.take 12 ≠ ascii "killforward:") :
      ascii "killforward:" ++ name ≠ s := by
    rintro rfl
    exact hs (List.take_left' rfl)
  rw [parse, if_neg (other _ (by decide)), if_neg (other _ (by decide))]
  simp [Bytes.consumePrefix]

theorem killForwardPieces_eq {name : Bytes} (hn : name ≠ []) (hs : 59 ∉ name) :
    killForwardPieces name = some name := by
  rw [killForwardPieces, List.splitOn_eq_singleton hs]
  exact if_neg hn

theorem forwardPieces_eq_some {service : Bytes} (h : forwardPieces service = some (name, connectTo)) :
    name ≠ [] ∧ 59 ∉ name ∧ connectTo.head? ≠ some 42 := by
  unfold forwardPieces at h
  split at h
  case h_1 hs =>
    simp only [Option.ite_none_left_eq_some, Option.some.injEq, Prod.mk.injEq] at h
    obtain ⟨hn, rfl, rfl⟩ := h
    refine ⟨fun h => hn (.inl h), ?_, fun h => hn (.inr (.inr h))⟩
    by_cases hm : 59 ∈ service
    · have cut := Bytes.splitOn_cut (if_pos hm : service.cut 59 = some _)
      rw [cut, List.cons.injEq] at hs
      rw [← hs.left]
      exact fun h => by simpa using List.mem_takeWhile_imp h
    · rw [List.splitOn_eq_singleton hm] at hs
      cases hs
  case h_2 => cases h

end ForwardRequest

theorem semicolon_not_mem_portName (port : Int) : 59 ∉ portName port := by
  rw [portName, List.mem_append, not_or]
  exact ⟨by decide, Bytes.not_mem_decimal (by decide) (.inr (by decide)) port⟩

namespace Server

theorem listeners_rebindListener {v : Server} {l : AListener} :
    (v.rebindListener l connectTo t).listeners = v.listeners.map fun k =>
      if k.id = l.id then { k with connectTo, transport := some t } else k := by
  simp only [rebindListener]
  split
  case isTrue => rfl
  case isFalse => split <;> rfl

theorem handleForwardRequest_kill {v : Server} {l : AListener} (hn : l.localName ≠ [])
    (hs : 59 ∉ l.localName) (hf : v.listeners.find? (·.localName == l.localName) = some l) :
    v.handleForwardRequest (ascii "killforward:" ++ l.localName) (.ok t) answer =
      some (.okay 0, v.eraseListener l) := by
  have installed : v.isInstalled l.localName :=
    List.any_eq_true.mpr ⟨l, List.mem_of_find?_eq_some hf, beq_self_eq_true _⟩
  simp [handleForwardRequest, ForwardRequest.parse_killForward, performKillForward,
    ForwardRequest.killForwardPieces_eq hn hs, removeStatus, installed, ForwardReply.ofStatus,
    removeListener, hf]

end Server

namespace Forwarding

variable {s s' : Forwarding} {a : Action} {l : AListener} {smart : Bytes}

-- The listener was asked for by its name, or its port was reported.
def Grants (s : Forwarding) (l : AListener) : Prop :=
  ∃ g ∈ s.granted, g.id = l.id ∧
    (l.localName = g.requested ∨ g.reported ≠ 0 ∧ l.localName = portName g.reported)

structure Forward (s : Forwarding) (l : AListener) : Prop where
  connectTo : l.connectTo.head? ≠ some 42
  nonempty  : l.localName ≠ []
  plain     : 59 ∉ l.localName
  grants    : s.Grants l

structure Orderly (smart : Bytes) (s : Forwarding) : Prop where
  registered : s.server.Registered
  kept       : Server.smartSocket smart ∈ s.server.listeners
  names      : (s.server.listeners.map (·.localName)).Nodup
  forwards   : ∀ l ∈ s.server.listeners, l = Server.smartSocket smart ∨ s.Forward l

theorem Forward.mono (h : s.Forward l) (hg : s.granted ⊆ s'.granted) : s'.Forward l where
  connectTo := h.connectTo
  nonempty  := h.nonempty
  plain     := h.plain
  grants    :=
    have ⟨g, hm, h⟩ := h.grants
    ⟨g, hg hm, h⟩

namespace Orderly

theorem filter (k : s.Orderly smart) (hr : s'.server.Registered) (p : AListener → Bool)
    (hp : p (Server.smartSocket smart)) (hl : s'.server.listeners = s.server.listeners.filter p)
    (hg : s.granted ⊆ s'.granted) : s'.Orderly smart where
  registered := hr
  kept       := hl ▸ List.mem_filter.mpr ⟨k.kept, hp⟩
  names      := hl ▸ (List.filter_sublist.map AListener.localName).nodup k.names
  forwards l hm :=
    (k.forwards l (List.mem_filter.mp (hl ▸ hm)).left).imp_right (·.mono hg)

theorem same (k : s.Orderly smart) (hs : s'.server = s.server) (hg : s.granted ⊆ s'.granted) :
    s'.Orderly smart :=
  k.filter (hs ▸ k.registered) (fun _ => true) rfl (by simp [hs]) hg

theorem remove (k : s.Orderly smart) (hs : s'.server = s.server.removeListener name)
    (hn : smart ≠ name) (hg : s.granted ⊆ s'.granted) : s'.Orderly smart := by
  unfold Server.removeListener at hs
  split at hs
  case h_1 => exact k.same hs hg
  case h_2 l hl =>
    have hm := List.mem_of_find?_eq_some hl
    have named : l.localName = name := by simpa using List.find?_some hl
    refine k.filter (hs ▸ k.registered.erase hm) (· ≠ l) ?_
      (hs ▸ k.registered.listeners_eraseListener hm) hg
    exact decide_eq_true fun he => hn (named ▸ congrArg AListener.localName he)

theorem remove_all (k : s.Orderly smart) (hs : s'.server = s.server.removeAllListeners)
    (hg : s.granted ⊆ s'.granted) : s'.Orderly smart :=
  k.filter (hs ▸ k.registered.remove_all) _ rfl (hs ▸ k.registered.listeners_removeAll) hg

theorem rebind (k : s.Orderly smart) (hl : l ∈ s.server.listeners) (hn : ¬l.isSmartSocket)
    (hc : connectTo.head? ≠ some 42) (hs : s'.server = s.server.rebindListener l connectTo t)
    (hg : s.granted ⊆ s'.granted) : s'.Orderly smart := by
  have listeners : s'.server.listeners = _ := hs ▸ Server.listeners_rebindListener
  refine ⟨hs ▸ k.registered.rebind hl, ?_, ?_, ?_⟩
  · have other : (Server.smartSocket smart).id ≠ l.id := by
      intro he
      exact hn (k.registered.unique k.kept hl he ▸ rfl)
    rw [listeners]
    exact List.mem_map.mpr ⟨_, k.kept, if_neg other⟩
  · rw [listeners, List.map_map]
    convert k.names using 1
    refine List.map_congr_left fun l' _ => ?_
    simp only [Function.comp_apply]
    split <;> rfl
  · intro l' hl'
    rw [listeners] at hl'
    obtain ⟨l₀, hl₀, rfl⟩ := List.mem_map.mp hl'
    split
    case isTrue he =>
      obtain rfl := k.registered.unique hl₀ hl he
      rcases k.forwards _ hl with rfl | f
      · exact absurd rfl hn
      · exact .inr { f.mono hg with connectTo := hc, grants := (f.mono hg).grants }
    case isFalse => exact (k.forwards l₀ hl₀).imp_right (·.mono hg)

theorem install_new (k : s.Orderly smart) {l : AListener} (hr : s'.server.Registered)
    (hl : s'.server.listeners = s.server.listeners ++ [l]) (hn : ¬s.server.isInstalled l.localName)
    (hf : s'.Forward l) (hg : s.granted ⊆ s'.granted) : s'.Orderly smart where
  registered := hr
  kept       := hl ▸ List.mem_append_left _ k.kept
  names      := by
    rw [hl, List.map_append, List.map_singleton, ← List.concat_eq_append, List.nodup_concat]
    refine ⟨fun h => hn ?_, k.names⟩
    have ⟨l', hl', he⟩ := List.mem_map.mp h
    exact List.any_eq_true.mpr ⟨l', hl', beq_iff_eq.mpr he⟩
  forwards l' hm := by
    rcases List.mem_append.mp (hl ▸ hm) with hm | hm
    · exact (k.forwards l' hm).imp_right (·.mono hg)
    · exact .inr (List.mem_singleton.mp hm ▸ hf)

end Orderly

theorem not_isInstalled {v : Server} (h : v.listeners.find? (·.localName == name) = none) :
    ¬v.isInstalled name := by
  simpa [Server.isInstalled] using h

theorem Orderly.forward (k : s.Orderly smart)
    (hp : ForwardRequest.parse request = some (.forward noRebind service))
    (hf : ForwardRequest.forwardPieces service = some (name, connectTo))
    (hc : ¬(!s.server.isInstalled name && (boundName name answer).any s.server.isInstalled)) :
    Orderly smart
      { server  := s.server.installListener name connectTo t noRebind (boundName name answer)
        granted := s.granted ++ s.grant request (.ofStatus service
          (s.server.installStatus name noRebind answer).2.1
          (s.server.installStatus name noRebind answer).2.2
          (s.server.installStatus name noRebind answer).1) } := by
  have hr : (s.server.installListener name connectTo t noRebind
      (boundName name answer)).Registered := k.registered.install
  have ⟨nonempty, plain, star⟩ := ForwardRequest.forwardPieces_eq_some hf
  have hg {gs} : s.granted ⊆ s.granted ++ gs := List.subset_append_left _ _
  cases hl : s.server.listeners.find? (·.localName == name)
  case some l =>
    by_cases hs : l.isSmartSocket || noRebind
    · refine k.same ?_ hg
      simp only [Server.installListener, hl, if_pos hs]
    · have hm := List.mem_of_find?_eq_some hl
      refine k.rebind (t := t) hm (fun h => hs (by rw [h, Bool.true_or])) star ?_ hg
      simp only [Server.installListener, hl, if_neg hs]
  case none =>
    have fresh := not_isInstalled hl
    cases answer
    case error e =>
      refine k.same ?_ hg
      simp only [Server.installListener, hl, boundName]
    case ok port =>
      have bound : ¬s.server.isInstalled (if port = 0 then name else portName port) := by
        simpa [fresh, boundName] using hc
      have listed : (s.server.installListener name connectTo t noRebind
          (boundName name (.ok port))).listeners = s.server.listeners ++ [{
            id        := s.server.nextListener
            localName := if port = 0 then name else portName port
            connectTo
            transport := some t }] := by
        simp only [Server.installListener, hl, boundName, Server.setDisconnects]
      have grant : s.grant request (.okay port) = [⟨s.server.nextListener, name, port⟩] := by
        simp [Forwarding.grant, hp, ForwardRequest.requested, hf, hl]
      refine k.install_new hr listed bound ⟨star, ?_, ?_, ⟨s.server.nextListener, name, port⟩, ?_, rfl, ?_⟩ hg
      · dsimp only
        split
        · exact nonempty
        · simp [portName, ascii]
      · dsimp only
        split
        · exact plain
        · exact semicolon_not_mem_portName port
      · simp only [Server.installStatus, hl, ForwardReply.ofStatus, grant]
        exact List.mem_append_right _ (List.mem_singleton_self _)
      · dsimp only
        split
        case isTrue => exact .inl rfl
        case isFalse h => exact .inr ⟨h, rfl⟩

theorem Orderly.next (k : s.Orderly smart) (hc : ¬s.clashes a) (h : s.next a = some s') :
    s'.Orderly smart := by
  cases a
  case runDisconnects t =>
    cases h
    exact k.filter k.registered.runDisconnects _ rfl k.registered.listeners_runDisconnects
      (List.Subset.refl _)
  case request service transport answer =>
    simp only [Forwarding.next, Server.handleForwardRequest, Option.map_map, Option.map_eq_some_iff,
      Function.comp_apply] at h
    obtain ⟨request, hp, rfl⟩ := h
    cases request
    case listForward => exact k.same rfl (List.subset_append_left _ _)
    case killForwardAll => exact k.remove_all rfl (List.subset_append_left _ _)
    case killForward service =>
      cases transport
      case error => exact k.same rfl (List.subset_append_left _ _)
      case ok t =>
        simp only [clashes, hp, List.any_eq_true, Bool.and_eq_true, not_exists, not_and,
          beq_iff_eq] at hc
        simp only [Server.performKillForward]
        cases hk : ForwardRequest.killForwardPieces service
        case none => exact k.same rfl (List.subset_append_left _ _)
        case some name =>
          refine k.remove rfl (fun he => ?_) (List.subset_append_left _ _)
          exact hc _ k.kept rfl (he ▸ hk)
    case forward noRebind service =>
      cases transport
      case error => exact k.same rfl (List.subset_append_left _ _)
      case ok t =>
        simp only [clashes, hp] at hc
        simp only [Server.performForward]
        cases hf : ForwardRequest.forwardPieces service
        case none => exact k.same rfl (List.subset_append_left _ _)
        case some pieces =>
          rw [hf] at hc
          exact k.forward hp hf hc

theorem Reachable.orderly (h : Reachable smart (fun s a => ¬s.clashes a) s) : s.Orderly smart := by
  refine h.invariant (fun _ _ _ hc hs k => k.next hc hs) ⟨Server.start_registered, ?_, ?_, ?_⟩
  all_goals simp [Server.start]

theorem forwards_removable (h : Reachable name (fun s a => ¬s.clashes a) s) :
    Server.smartSocket name ∈ s.server.listeners ∧
    (s.server.listeners.map (·.localName)).Nodup ∧
    ∀ l ∈ s.server.listeners, l ≠ Server.smartSocket name → ∃ g ∈ s.granted, g.id = l.id ∧
      ∃ localName, (localName = g.requested ∨ g.reported ≠ 0 ∧ localName = portName g.reported) ∧
        (∀ t answer, s.server.handleForwardRequest (ascii "killforward:" ++ localName) (.ok t) answer =
          some (.okay 0, s.server.eraseListener l)) ∧
        (s.server.eraseListener l).listeners = s.server.listeners.filter (· ≠ l) := by
  have k := h.orderly
  refine ⟨k.kept, k.names, fun l hl hn => ?_⟩
  have f := (k.forwards l hl).resolve_left hn
  have ⟨g, hg, hi, named⟩ := f.grants
  refine ⟨g, hg, hi, l.localName, named, fun t answer => ?_, k.registered.listeners_eraseListener hl⟩
  exact Server.handleForwardRequest_kill f.nonempty f.plain (Server.find_name k.names hl)

-- A forward that got a port from the system is requested again under its new name.
theorem forwards_removable_ports : ∃ s : Forwarding,
    s.server.listeners = [Server.smartSocket (ascii "tcp:5037"),
      ⟨1, ascii "tcp:5000", ascii "tcp:3", some 0⟩] ∧
    ∃ g ∈ s.granted, g.id = 1 := by
  have run : (exec (guarded (fun s a => !s.clashes a) next)
      { server := .start (some (ascii "tcp:5037")) } [
      .request (ascii "forward:tcp:0;tcp:1") (.ok 0) (.ok 5000),
      .request (ascii "forward:norebind:localabstract:a;tcp:2") (.ok 0) (.ok 0),
      .request (ascii "forward:tcp:5000;tcp:3") (.ok 0) (.ok 0),
      .request (ascii "forward:tcp:5037;tcp:3") (.ok 0) (.ok 0),
      .request (ascii "killforward:localabstract:a") (.ok 0) (.ok 0)]).any fun s =>
        s.server.listeners = [Server.smartSocket (ascii "tcp:5037"),
          ⟨1, ascii "tcp:5000", ascii "tcp:3", some 0⟩] := by
    decide +kernel
  simp only [Option.any_eq_true, decide_eq_true_eq] at run
  have ⟨s, hs, listeners⟩ := run
  have ⟨_, _, removable⟩ := forwards_removable (.of_guarded (fun _ _ => by simp) hs)
  have ⟨g, hg, hi, _⟩ := removable ⟨1, ascii "tcp:5000", ascii "tcp:3", some 0⟩ (by simp [listeners])
    (by decide)
  exact ⟨s, listeners, g, hg, hi⟩

-- The listener for the clients is removed by its name, and a forward of a vsock port gets the name of
-- the TCP port.
theorem smartSocket_removed :
    (∃ s, Reachable (ascii "tcp:5037") (fun _ _ => True) s ∧ s.server.listeners = []) ∧
    ∃ s, Reachable (ascii "tcp:5037") (fun _ _ => True) s ∧
      ¬(s.server.listeners.map (·.localName)).Nodup := by
  have removed : (exec next { server := .start (some (ascii "tcp:5037")) }
      [.request (ascii "killforward:tcp:5037") (.ok 0) (.ok 0)]).any (·.server.listeners = []) := by
    decide +kernel
  have doubled : (exec next { server := .start (some (ascii "tcp:5037")) }
      [.request (ascii "forward:tcp:5000;tcp:1") (.ok 0) (.ok 5000),
        .request (ascii "forward:vsock:5000;tcp:2") (.ok 0) (.ok 5000)]).any
        fun s => ¬(s.server.listeners.map (·.localName)).Nodup := by
    decide +kernel
  simp only [Option.any_eq_true, decide_eq_true_eq] at removed doubled
  have ⟨s₁, h₁, empty⟩ := removed
  have ⟨s₂, h₂, twice⟩ := doubled
  exact ⟨⟨s₁, .of_exec h₁, empty⟩, s₂, .of_exec h₂, twice⟩

end Forwarding

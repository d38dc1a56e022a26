import LibAdb.Machine.Tasks
import Mathlib.Data.List.Nodup

namespace Server

variable {v v' v₁ : Server} {a : Action} {t : Tid} {o : Option Tid} {os : Os} {l l' : AListener}
  {ls : List AListener}

def Subscribed (v : Server) : Prop :=
  ∀ l ∈ v.listeners, ∀ t, l.transport = some t → l.id ∈ v.disconnects t

-- Every listener has an identifier of its own. The callbacks of a transport are those of its
-- listeners, each of them once.
structure Registered (v : Server) : Prop where
  ids       : (v.listeners.map (·.id)).Nodup
  fresh     : ∀ l ∈ v.listeners, l.id < v.nextListener
  once      : ∀ t, (v.disconnects t).Nodup
  callbacks : ∀ t id, id ∈ v.disconnects t ↔ ∃ l ∈ v.listeners, l.id = id ∧ l.transport = some t

theorem listeners_eraseListener :
    (v.eraseListener l).listeners = v.listeners.filter (·.id != l.id) := by
  simp only [eraseListener]
  split <;> rfl

namespace Registered

theorem subscribed (k : v.Registered) : v.Subscribed :=
  fun l hl t ht => (k.callbacks t l.id).mpr ⟨l, hl, rfl, ht⟩

theorem unique (k : v.Registered) (hl : l ∈ v.listeners) (hl' : l' ∈ v.listeners)
    (h : l.id = l'.id) : l = l' :=
  List.inj_on_of_nodup_map k.ids hl hl' h

theorem ids_filter (k : v.Registered) (p : AListener → Bool) :
    ((v.listeners.filter p).map (·.id)).Nodup :=
  (List.filter_sublist.map AListener.id).nodup k.ids

theorem fresh_filter (k : v.Registered) (p : AListener → Bool) :
    ∀ l ∈ v.listeners.filter p, l.id < v.nextListener :=
  fun l hl => k.fresh l (List.mem_filter.mp hl).left

theorem erase (k : v.Registered) (hl : l ∈ v.listeners) : (v.eraseListener l).Registered := by
  have unique {l'} (hl' : l' ∈ v.listeners) (h : l'.id = l.id) : l' = l := k.unique hl' hl h
  simp only [eraseListener]
  split
  case h_1 ht =>
    refine ⟨k.ids_filter _, k.fresh_filter _, k.once, fun t id => ?_⟩
    rw [k.callbacks]
    grind
  case h_2 u ht =>
    refine ⟨k.ids_filter _, k.fresh_filter _, fun t => ?_, fun t id => ?_⟩
    · simp only [setDisconnects]
      split
      · exact (k.once u).filter _
      · exact k.once t
    · simp only [setDisconnects]
      split
      · rw [List.mem_filter, k.callbacks]
        grind
      · rw [k.callbacks]
        grind

theorem erase_all (k : v.Registered) (hd : (ls.map (·.id)).Nodup) (hl : ls ⊆ v.listeners) :
    (ls.foldl eraseListener v).Registered := by
  induction ls generalizing v
  case nil => exact k
  case cons l ls ih =>
    have ⟨hn, hd⟩ := List.nodup_cons.mp hd
    have ⟨hm, hl⟩ := List.cons_subset.mp hl
    refine ih (k.erase hm) hd fun l' hl' => ?_
    rw [listeners_eraseListener, List.mem_filter]
    refine ⟨hl hl', bne_iff_ne.mpr fun he => hn ?_⟩
    exact List.mem_map.mpr ⟨l', hl', he⟩

theorem rebind (k : v.Registered) (hl : l ∈ v.listeners) :
    (v.rebindListener l connectTo t).Registered := by
  have unique {l'} (hl' : l' ∈ v.listeners) (h : l'.id = l.id) : l' = l := k.unique hl' hl h
  have callbacks := k.callbacks
  have once := k.once
  have fresh := k.fresh
  have ids : ((v.listeners.map fun k =>
      if k.id = l.id then { k with connectTo, transport := some t } else k).map (·.id)).Nodup := by
    rw [List.map_map]
    convert k.ids using 1
    refine List.map_congr_left fun k _ => ?_
    grind
  have attached (u id) : (∃ l' ∈ v.listeners.map fun k =>
      if k.id = l.id then { k with connectTo, transport := some t } else k,
      l'.id = id ∧ l'.transport = some u) ↔
        id = l.id ∧ u = t ∨ id ≠ l.id ∧ id ∈ v.disconnects u := by
    rw [callbacks]
    simp only [List.mem_map, exists_exists_and_eq_and]
    grind
  simp only [rebindListener]
  split
  case isTrue ht =>
    refine ⟨ids, ?_, once, fun u id => ?_⟩
    · grind
    · rw [attached, callbacks]
      grind
  case isFalse ht =>
    split
    case h_1 hn =>
      refine ⟨ids, ?_, fun u => ?_, fun u id => ?_⟩
      · grind [setDisconnects]
      · have := callbacks t l.id
        simp only [setDisconnects]
        grind
      · have := callbacks u l.id
        simp only [setDisconnects]
        rw [attached]
        grind
    case h_2 w hw =>
      refine ⟨ids, ?_, fun u => ?_, fun u id => ?_⟩
      · grind [setDisconnects]
      · have := callbacks t l.id
        have := (once w).filter (· != l.id)
        simp only [setDisconnects]
        grind
      · have := callbacks u l.id
        simp only [setDisconnects]
        rw [attached]
        grind

theorem install (k : v.Registered) :
    (v.installListener localName connectTo t noRebind bound).Registered := by
  unfold installListener
  split
  case h_1 l hl =>
    split
    case isTrue => exact k
    case isFalse => exact k.rebind (List.mem_of_find?_eq_some hl)
  case h_2 => exact k
  case h_3 =>
    have callbacks := k.callbacks
    have once := k.once
    have fresh := k.fresh
    have ids := k.ids
    refine ⟨?_, ?_, fun u => ?_, fun u id => ?_⟩
    · simp only [setDisconnects, List.map_append, List.map_cons, List.map_nil]
      grind
    · grind [setDisconnects]
    · have := callbacks t v.nextListener
      simp only [setDisconnects]
      grind
    · have := callbacks u id
      simp only [setDisconnects, List.mem_append, List.mem_singleton, or_and_right, exists_or,
        exists_eq_left, Option.some.injEq]
      grind

theorem runDisconnects (k : v.Registered) : (v.runDisconnects t).Registered := by
  have callbacks := k.callbacks
  have once := k.once
  have fresh := k.fresh
  rw [runDisconnects_eq]
  refine ⟨k.ids_filter _, k.fresh_filter _, fun u => ?_, fun u id => ?_⟩
  · grind [setDisconnects]
  · have unique {l l'} (hl : l ∈ v.listeners) (hl' : l' ∈ v.listeners) := k.unique hl hl'
    grind [setDisconnects]

theorem remove (k : v.Registered) : (v.removeListener localName).Registered := by
  unfold removeListener
  split
  case h_1 => exact k
  case h_2 hl => exact k.erase (List.mem_of_find?_eq_some hl)

theorem remove_all (k : v.Registered) : v.removeAllListeners.Registered :=
  k.erase_all (k.ids_filter _) (List.filter_subset_self _)

end Registered

-- No listener refers to another transport than before, the given one apart.
structure Listens (v : Server) (o : Option Tid) (v' : Server) : Prop where
  registered : v.Registered → v'.Registered
  refers     : ∀ l' ∈ v'.listeners, l'.transport = o ∨ ∃ l ∈ v.listeners, l.transport = l'.transport

theorem Listens.of_eq (hl : v'.listeners = v.listeners) (hn : v'.nextListener = v.nextListener)
    (hd : v'.disconnects = v.disconnects) : v.Listens o v' where
  registered k := ⟨hl ▸ k.ids, hl ▸ hn ▸ k.fresh, hd ▸ k.once, hl ▸ hd ▸ k.callbacks⟩
  refers l hm  := .inr ⟨l, hl ▸ hm, rfl⟩

theorem Listens.congr (h : v₁.Listens o v') (hl : v₁.listeners = v.listeners)
    (hn : v₁.nextListener = v.nextListener) (hd : v₁.disconnects = v.disconnects) :
    v.Listens o v' where
  registered k := h.registered ((of_eq hl hn hd : v.Listens none v₁).registered k)
  refers       := hl ▸ h.refers

theorem Listens.keeping (h : v.Listens o v₁) (hl : v'.listeners = v₁.listeners)
    (hn : v'.nextListener = v₁.nextListener) (hd : v'.disconnects = v₁.disconnects) :
    v.Listens o v' where
  registered k := (of_eq hl hn hd : v₁.Listens none v').registered (h.registered k)
  refers       := hl ▸ h.refers

theorem Relists.listens (h : v.Relists o v') (k : v.Registered → v'.Registered) : v.Listens o v' :=
  ⟨k, h.refers⟩

theorem Signals.listens (h : v.Signals t v') : v.Listens o v' :=
  .of_eq (by rw [h.eq]) (by rw [h.eq]) (by rw [h.eq])

theorem Informs.listens (h : v.Informs v') : v.Listens o v' :=
  have ⟨_, h⟩ := h
  .of_eq (by rw [h.eq]) (by rw [h.eq]) (by rw [h.eq])

theorem handleOffline_listens : v.Listens none (v.handleOffline t) := by
  unfold handleOffline
  split
  case isTrue => exact .of_eq rfl rfl rfl
  case isFalse =>
    exact (runDisconnects_relists.listens Registered.runDisconnects).congr rfl rfl rfl

theorem handlePacket_listens : v.Listens none (v.handlePacket t p os) := by
  unfold handlePacket
  split
  case h_1 => exact handleOffline_listens.keeping rfl rfl rfl
  case h_2 =>
    simp only [handleAuth]
    split
    case isTrue => exact .of_eq rfl rfl rfl
    case isFalse =>
      split
      case isTrue => split <;> exact .of_eq rfl rfl rfl
      case isFalse => exact handleOffline_listens.congr rfl rfl rfl
  case h_3 => exact .of_eq rfl rfl rfl

theorem handleError_listens : v.Listens none (v.handleError t) := by
  have hs := (stop_signals (v := v.handleOffline t) (t := t)).eq
  have listens := handleOffline_listens (v := v) (t := t)
  simp only [handleError, transportDestroy]
  split <;> rw [hs] <;> exact listens.keeping rfl rfl rfl

def Action.installs : Action → Option Tid
  | .installListener _ _ t _ _ => some t
  | _ => none

theorem Moves.listens (m : v.Moves a v') : v.Listens a.installs v' := by
  cases m
  case run task rest os h hr =>
    cases task
    case registerTransport =>
      simp only [runTask, registerTransport]
      split <;> exact .of_eq rfl rfl rfl
    case handlePacket => exact handlePacket_listens.congr rfl rfl rfl
    case handleError => exact handleError_listens.congr rfl rfl rfl
    case unregisterTransport | startSession => exact .of_eq rfl rfl rfl
  case event | read | accept | startSession | postSession => exact .of_eq rfl rfl rfl
  case fail h => exact (reportError_signals (started_of_running h)).listens
  case kick => exact kickTransport_signals.listens
  case install => exact installListener_relists.listens Registered.install
  case remove => exact removeListener_relists.listens Registered.remove
  case removeAll => exact removeAllListeners_relists.listens Registered.remove_all
  case connect =>
    rw [connect_frame]
    exact .of_eq rfl rfl rfl
  case connectDevice i d result hd ht =>
    cases result
    case none => exact (finishConnect_informs (o := none)).listens
    case some serial =>
      by_cases hr : v.registered serial
      case pos =>
        rw [connectDevice_of_registered hr]
        exact finishConnect_informs.listens
      case neg =>
        rw [connectDevice_of_not_registered hr]
        exact .of_eq rfl rfl rfl
  case waitForConnection h => exact (waitForConnection_informs h).listens
  case finishClientConnect h => exact (finishClientConnect_informs h).listens
  case close => exact closeDevice_informs.listens

theorem Runs.registered (h : Runs P v v') (k : v.Registered) : v'.Registered :=
  Reach.invariant (fun _ _ _ _ hs => (next_moves hs).right.listens.registered) h k

theorem Reachable.subscribed (h : Reachable P v) : v.Subscribed :=
  (Runs.registered h ⟨.nil, nofun, fun _ => .nil, by simp⟩).subscribed

end Server

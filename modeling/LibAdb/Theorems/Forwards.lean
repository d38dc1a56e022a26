import LibAdb.Execution.Forward
import LibAdb.Theorems.Listeners

-- The forwards of a device, as its transport on the host keeps them.

-- What the host's table has to do with the device's.
structure Tracks (t : ATransport) (f : List (Bytes × Bytes)) : Prop where
  same  : ∀ e, e ∈ t.reverseForwards ↔ e ∈ f
  keys  : (f.map (·.1)).Nodup
  plain : ∀ e ∈ f, e.1 ≠ [] ∧ e.2.head? ≠ some 42

namespace Tracks

variable {t : ATransport} {f : List (Bytes × Bytes)}

theorem lookup_iff (h : Tracks t f) : (t.reverseLookup remote).isSome ↔ ∃ e ∈ f, e.1 = remote := by
  simp [ATransport.reverseLookup, h.same]

theorem erase (h : Tracks t f) (name : Bytes) :
    Tracks (t.reverseErase name) (f.filter (·.1 != name)) := by
  refine ⟨fun e => by simp [ATransport.reverseErase, h.same], ?_, fun e he => ?_⟩
  · exact h.keys.sublist ((List.filter_sublist).map _)
  · exact h.plain e (List.mem_filter.mp he).1

theorem erase_unnamed (h : Tracks t f) : Tracks (t.reverseErase []) f := by
  refine ⟨fun e => ?_, h.keys, h.plain⟩
  simpa [ATransport.reverseErase, h.same] using fun he => (h.plain e he).1

theorem rebind (h : Tracks t f) (hu : ∃ e ∈ f, e.1 = name) (hl : loc.head? ≠ some 42) :
    Tracks (t.reverseInsert name loc)
      (f.map fun e => if e.1 == name then (e.1, loc) else e) := by
  have fst (e : Bytes × Bytes) : (if e.1 == name then (e.1, loc) else e).1 = e.1 := by
    split <;> rfl
  refine ⟨fun e => ?_, ?_, fun e he => ?_⟩
  · obtain ⟨e', he', hk⟩ := hu
    simp only [ATransport.reverseInsert, List.mem_cons, List.mem_filter, List.mem_map, h.same,
      bne_iff_ne]
    constructor
    case mp =>
      rintro (rfl | ⟨he, hn⟩)
      · exact ⟨e', he', by simp_all⟩
      · exact ⟨e, he, by simp [hn]⟩
    case mpr =>
      rintro ⟨e'', he'', rfl⟩
      by_cases hn : e''.1 = name <;> simp [hn, he'']
  · rw [List.map_map]
    simpa only [Function.comp_def, fst] using h.keys
  · obtain ⟨e', he', rfl⟩ := List.mem_map.mp he
    have plain := h.plain e' he'
    split
    case isTrue => exact ⟨plain.1, hl⟩
    case isFalse => exact plain

theorem append (h : Tracks t f) (new : ¬∃ e ∈ f, e.1 = name) (hn : name ≠ [])
    (hl : loc.head? ≠ some 42) : Tracks (t.reverseInsert name loc) (f ++ [(name, loc)]) := by
  refine ⟨fun e => ?_, ?_, fun e he => ?_⟩
  · simp only [ATransport.reverseInsert, List.mem_cons, List.mem_filter, h.same, bne_iff_ne,
      List.mem_append, List.not_mem_nil, or_false]
    have (he : e ∈ f) : e.1 ≠ name := fun hk => new ⟨e, he, hk⟩
    tauto
  · simpa [List.nodup_append, h.keys] using fun a b hab hk => new ⟨(a, b), hab, hk⟩
  · obtain he | he := List.mem_append.mp he
    · exact h.plain e he
    · rw [List.mem_singleton.mp he]
      exact ⟨hn, hl⟩

end Tracks

namespace Server

variable {v : Server} {l : AListener}

theorem forwards_removeListener (k : v.Registered) (hd : (v.forwards.map (·.1)).Nodup) :
    (v.removeListener name).forwards = v.forwards.filter (·.1 != name) := by
  rw [forwards, List.map_map] at hd
  rw [removeListener, forwards, forwards, List.filter_map]
  split
  case h_1 hf =>
    rw [List.filter_eq_self.mpr]
    simpa using hf
  case h_2 l hf =>
    have hl := List.mem_of_find?_eq_some hf
    have named : l.localName = name := by simpa using List.find?_some hf
    rw [k.listeners_eraseListener hl]
    refine congrArg _ (List.filter_congr fun l' hl' => ?_)
    rw [Bool.eq_iff_iff, decide_eq_true_eq, Function.comp_apply, bne_iff_ne, ← named]
    exact not_congr ⟨congrArg AListener.localName, List.inj_on_of_nodup_map hd hl' hl⟩

theorem forwards_rebindListener (k : v.Registered) (hd : (v.forwards.map (·.1)).Nodup)
    (hl : l ∈ v.listeners) : (v.rebindListener l connectTo t).forwards =
      v.forwards.map fun e => if e.1 == l.localName then (e.1, connectTo) else e := by
  rw [forwards, List.map_map] at hd
  rw [forwards, listeners_rebindListener, forwards, List.map_map, List.map_map]
  refine List.map_congr_left fun l' hl' => ?_
  have same : l'.localName = l.localName ↔ l'.id = l.id :=
    ⟨fun h => congrArg _ (List.inj_on_of_nodup_map hd hl' hl h), fun h => congrArg _ (k.unique hl' hl h)⟩
  simp only [Function.comp_apply, beq_iff_eq, same]
  split <;> rfl

theorem isInstalled_iff : v.isInstalled name ↔ ∃ e ∈ v.forwards, e.1 = name := by
  simp [isInstalled, forwards]

theorem forwards_installListener (k : v.Registered) (h : Tracks tr v.forwards) :
    (v.installListener name connectTo t noRebind bound).forwards =
      if v.isInstalled name then
        if noRebind then v.forwards
        else v.forwards.map fun e => if e.1 == name then (e.1, connectTo) else e
      else v.forwards ++ bound.toList.map (·, connectTo) := by
  unfold installListener
  cases hf : v.listeners.find? (·.localName == name)
  case none =>
    rw [if_neg (by simpa [isInstalled] using hf)]
    cases bound <;> simp [forwards, setDisconnects]
  case some l =>
    have hl := List.mem_of_find?_eq_some hf
    have named : l.localName = name := by simpa using List.find?_some hf
    have installed : v.isInstalled name := List.any_eq_true.mpr ⟨l, hl, beq_iff_eq.mpr named⟩
    have smart : l.isSmartSocket = false := by
      have := (h.plain _ (List.mem_map_of_mem hl)).2
      simpa [AListener.isSmartSocket] using fun he => this (by rw [he]; rfl)
    rw [if_pos installed]
    simp only [smart, Bool.false_or]
    split
    case isTrue => rfl
    case isFalse => rw [forwards_rebindListener k h.keys hl, named]

end Server

namespace Reverse

-- The device carries out the forward under the name it has in the request. A listener with a port is
-- named after the port.
def keepsName (v : Server) (answer : Except Bytes Int) (args : Bytes) : Bool :=
  match args.cut 59 with
  | none => true
  | some (remote, loc) =>
    remote ≠ [] && loc ≠ [] && 59 ∉ loc && loc.head? ≠ some 42 &&
      (v.isInstalled remote || boundName remote answer == some remote)

-- Both sides read the request in the same way.
def trackable (s : Reverse) : Bytes × Except Bytes Int → Bool
  | (service, answer) =>
    match service.consumePrefix "reverse:" with
    | none => true
    | some request => 0 ∉ request &&
      match request.consumePrefix "forward:" with
      | none => true
      | some args => keepsName s.device answer ((args.consumePrefix "norebind:").getD args)

structure Agrees (s : Reverse) : Prop where
  registered : s.device.Registered
  tracks     : Tracks s.transport s.device.forwards

namespace Agrees

variable {t t' : ATransport} {v : Server}

theorem forward (h : Agrees ⟨t, v⟩) (hr : remote ≠ []) (star : loc.head? ≠ some 42)
    (hb : v.isInstalled remote || boundName remote answer == some remote)
    (hu : (if norebind && (t.reverseLookup remote).isSome then some t
      else some (t.reverseInsert remote loc)) = some t') :
    Agrees ⟨t', v.installListener remote loc 0 norebind (boundName remote answer)⟩ := by
  have ⟨k, tracks⟩ := h
  have used : (t.reverseLookup remote).isSome = v.isInstalled remote := by
    rw [Bool.eq_iff_iff, tracks.lookup_iff, Server.isInstalled_iff]
  refine ⟨k.install, ?_⟩
  dsimp only
  rw [Server.forwards_installListener k tracks]
  rw [used] at hu
  cases hi : v.isInstalled remote
  case false =>
    rw [hi, Bool.false_or, beq_iff_eq] at hb
    rw [hi, Bool.and_false, if_neg nofun, Option.some.injEq] at hu
    rw [if_neg nofun, hb, ← hu]
    exact tracks.append (fun hn => by simp [Server.isInstalled_iff.mpr hn] at hi) hr star
  case true =>
    rw [hi, Bool.and_true] at hu
    rw [if_pos rfl]
    cases norebind <;> cases hu
    case false => exact tracks.rebind (Server.isInstalled_iff.mp hi) star
    case true => exact tracks

theorem performForward {args : Bytes} (h : Agrees ⟨t, v⟩)
    (hq : keepsName v answer args)
    (hu : (match args.cut 59 with
      | none => some t
      | some (remote, loc) =>
        if norebind && (t.reverseLookup remote).isSome then some t
        else some (t.reverseInsert remote loc)) = some t') :
    Agrees ⟨t', (v.performForward 0 answer norebind args).2⟩ := by
  rw [Server.performForward, ForwardRequest.forwardPieces]
  cases hc : args.cut 59
  case none =>
    have hs : 59 ∉ args := by simpa [Bytes.cut] using hc
    rw [hc] at hu
    rw [List.splitOn_eq_singleton hs]
    exact Option.some.inj hu ▸ h
  case some c =>
    obtain ⟨remote, loc⟩ := c
    simp only [hc] at hu
    simp only [keepsName, hc, Bool.and_eq_true, decide_eq_true_eq] at hq
    obtain ⟨⟨⟨⟨hr, hl⟩, hs⟩, star⟩, hb⟩ := hq
    rw [Bytes.splitOn_cut hc, List.splitOn_eq_singleton hs]
    simp only [hr, hl, star, false_or, if_false]
    exact h.forward hr star hb hu

theorem kill (h : Agrees ⟨t, v⟩)
    (hu : (if 59 ∈ service then some t else some (t.reverseErase service)) = some t') :
    Agrees ⟨t', (v.performKillForward service).2⟩ := by
  have ⟨k, tracks⟩ := h
  rw [Server.performKillForward, ForwardRequest.killForwardPieces]
  split_ifs at hu with hs <;> cases hu
  · have hcut : service.cut 59 = some _ := if_pos hs
    rw [Bytes.splitOn_cut hcut]
    cases hb : List.splitOn 59 (service.dropWhile (· != 59)).tail
    case nil => exact absurd hb (List.splitOn_ne_nil 59 _)
    case cons => exact h
  · rw [List.splitOn_eq_singleton hs]
    by_cases hn : service = []
    case pos =>
      subst hn
      exact ⟨k, tracks.erase_unnamed⟩
    case neg =>
      simp only [hn, if_false]
      exact ⟨k.remove, Server.forwards_removeListener k tracks.keys ▸ tracks.erase service⟩

theorem kill_all (h : Agrees ⟨t, v⟩) :
    Agrees ⟨{ t with reverseForwards := [] }, v.removeAllListeners⟩ := by
  have ⟨k, tracks⟩ := h
  have none : v.removeAllListeners.forwards = [] := by
    rw [Server.forwards, k.listeners_removeAll, List.map_eq_nil_iff, List.filter_eq_nil_iff]
    intro l hl
    simpa using (tracks.plain _ (List.mem_map_of_mem hl)).2
  refine ⟨k.remove_all, ?_⟩
  dsimp only
  rw [none]
  exact ⟨fun _ => Iff.rfl, .nil, nofun⟩

theorem answered (h : Agrees ⟨t, v⟩) (hq : trackable ⟨t, v⟩ (ascii "reverse:" ++ request, answer))
    (hu : t.updateReverseConfig (ascii "reverse:" ++ request) = some t') :
    Agrees ⟨t', ((v.handleForwardRequest request (.ok 0) answer).map (·.2)).getD v⟩ := by
  simp only [trackable, Bytes.consumePrefix_append, Bool.and_eq_true] at hq
  simp only [ATransport.updateReverseConfig, Bytes.consumePrefix_append] at hu
  unfold Server.handleForwardRequest ForwardRequest.parse
  cases hf : request.consumePrefix "forward:"
  case some args =>
    have head := Bytes.head_of_consumePrefix (by decide) hf
    have other (l : Bytes) (hl : l.head? ≠ (ascii "forward:").head?) : request ≠ l :=
      fun hr => hl (hr ▸ head)
    have kill : request.consumePrefix "killforward:" = none :=
      Option.eq_none_iff_forall_ne_some.mpr fun _ hk =>
        absurd (head.symm.trans (Bytes.head_of_consumePrefix (by decide) hk)) (by decide)
    simp only [hf] at hq hu
    simp only [other _ (by decide : (ascii "list-forward").head? ≠ _),
      other _ (by decide : (ascii "killforward-all").head? ≠ _), if_false, kill]
    cases hn : args.consumePrefix "norebind:"
    all_goals
      rw [hn] at hq hu
      exact h.performForward hq.2 hu
  case none =>
    simp only [hf] at hu
    cases hk : request.consumePrefix "killforward:"
    case some name =>
      have list : request ≠ ascii "list-forward" := fun hl =>
        absurd (hl ▸ Bytes.head_of_consumePrefix (by decide) hk) (by decide)
      have all : request ≠ ascii "killforward-all" := fun hl => by
        have prefixed := Option.isSome_of_eq_some hk
        rw [hl] at prefixed
        exact absurd prefixed (by decide)
      simp only [hk] at hu
      simp only [list, all, if_false]
      exact h.kill hu
    case none =>
      simp only [hk] at hu
      split_ifs at hu with hall hlist
      · cases hu
        rw [hall, if_neg (by decide), if_pos rfl]
        exact h.kill_all
      · cases hu
        simp only [hlist, if_true]
        exact h

end Agrees

variable {v : Server} {s s' : Reverse}

theorem openService_plain (h : 0 ∉ service) (hr : service.consumePrefix "reverse:" = some request) :
    openService v service answer =
      ((v.handleForwardRequest request (.ok 0) answer).map (·.2)).getD v := by
  have plain : Bytes.cString service [] = service := by
    simpa [Bytes.cString] using Bytes.takeWhile_append_plain h []
  simp only [openService, plain, hr]

theorem openService_other (h : service.consumePrefix "reverse:" = none) :
    openService v service answer = v := by
  unfold openService
  cases hc : (Bytes.cString service []).consumePrefix "reverse:"
  case none => rfl
  case some rest =>
    have start : ascii "reverse:" <+: service := by
      have hs : Bytes.cString service [] <+: service ++ [] := List.takeWhile_prefix _
      rw [List.append_nil, Bytes.consumePrefix_eq_some hc] at hs
      exact (List.prefix_append ..).trans hs
    simp [Bytes.consumePrefix, start] at h

theorem Agrees.next (h : Agrees s) (hq : s.trackable (service, answer))
    (hn : s.next (service, answer) = some s') : Agrees s' := by
  obtain ⟨t, hu, rfl⟩ := Option.map_eq_some_iff.mp hn
  cases hr : service.consumePrefix "reverse:"
  case none =>
    simp only [ATransport.updateReverseConfig, hr, Option.some.injEq] at hu
    rw [← hu, openService_other hr]
    exact h
  case some request =>
    have hs := Bytes.consumePrefix_eq_some hr
    have plain : 0 ∉ service := by
      have hq := hq
      simp only [trackable, hr, Bool.and_eq_true, decide_eq_true_eq] at hq
      rw [hs, List.mem_append, not_or]
      exact ⟨by decide, hq.1⟩
    rw [openService_plain plain hr]
    exact h.answered (hs ▸ hq) (hs ▸ hu)

def Reachable (P : Reverse → Bytes × Except Bytes Int → Prop) : Reverse → Prop :=
  Reach (fun s a s' => s.next a = some s') P {}

theorem isReverseConfigured_iff_installed (h : Reachable (fun s a => s.trackable a) s) (addr : Bytes) :
    s.transport.isReverseConfigured addr ↔ ∃ e ∈ s.device.forwards, e.2 = addr := by
  have empty : Server.Registered {} := ⟨.nil, nofun, fun _ => .nil, by simp⟩
  have agrees : Agrees s := Reach.invariant (fun _ _ _ hq hn ha => ha.next hq hn) h
    ⟨empty, fun _ => Iff.rfl, .nil, nofun⟩
  simp only [ATransport.isReverseConfigured, List.any_eq_true, beq_iff_eq, agrees.tracks.same]

theorem isReverseConfigured_iff_installed_after_rebind : ∃ s,
    Reachable (fun s a => s.trackable a) s ∧
    s.device.forwards = [(ascii "tcp:1", ascii "tcp:8"), (ascii "local:a", ascii "tcp:9")] ∧
    (s.transport.isReverseConfigured (ascii "tcp:8") ↔
      ∃ e ∈ s.device.forwards, e.2 = ascii "tcp:8") := by
  have ⟨s, h, hf⟩ : ∃ s, Reachable (fun s a => s.trackable a) s ∧
      s.device.forwards = [(ascii "tcp:1", ascii "tcp:8"), (ascii "local:a", ascii "tcp:9")] :=
    Reach.exists_of_guarded (q := fun s a => s.trackable a) (fun _ _ hq => hq)
      [(ascii "reverse:forward:tcp:1;tcp:7", .ok 1), (ascii "reverse:forward:tcp:2;tcp:9", .ok 2),
        (ascii "reverse:forward:norebind:tcp:1;tcp:9", .ok 0),
        (ascii "reverse:forward:local:a;tcp:9", .ok 0),
        (ascii "reverse:forward:tcp:1;tcp:8", .ok 0), (ascii "reverse:killforward:tcp:2", .ok 0)]
      (by decide +kernel)
  exact ⟨s, h, hf, isReverseConfigured_iff_installed h _⟩

-- Both forwards ask for any port. The host keeps them under one name, and it does not know the one
-- that the device gave to the first.
theorem wildcard_forward_is_lost : ∃ s, Reachable (fun _ _ => True) s ∧
    s.device.forwards = [(ascii "tcp:4001", ascii "tcp:7")] ∧
    s.transport.isReverseConfigured (ascii "tcp:7") = false ∧
    s.transport.isReverseConfigured (ascii "tcp:8") :=
  Reach.exists_of_exec [(ascii "reverse:forward:tcp:0;tcp:7", .ok 4001),
    (ascii "reverse:forward:tcp:0;tcp:8", .ok 4002), (ascii "reverse:killforward:tcp:4002", .ok 0)]
    (by decide +kernel)

end Reverse

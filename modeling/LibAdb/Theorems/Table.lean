import LibAdb.Machine.CloseAll
import LibAdb.Machine.Server
import LibAdb.Machine.Stream

namespace Act.Step

variable {s s' : Looper} {r : Ref} {c' : ASocket} {b : Act}

theorem origin (w : s.WF) (h : Act.Step s b s') (hb : ∀ r, b ≠ .create r)
    (hr : s'.sock r = some c') : ∃ c, s.sock r = some c ∧ c'.id = c.id ∧
      c'.ops.isLocal = c.ops.isLocal ∧ (c.closing → c'.closing) := by
  have m := h.moves w (r := r)
  generalize s'.remotePeer r = y, s'.history r = z, hx : s'.sock r = x at m
  rw [hr] at hx
  cases m
  case idle => exact ⟨c', hx.symm, rfl, rfl, id⟩
  case create => exact absurd rfl (hb r)
  case socket c a es c'' hc hs =>
    cases hx
    exact ⟨c, hc, hs.preserves_id, hs.preserves_kind.left, hs.preserves_closing ▸ id⟩
  case linger c hc =>
    cases hx
    exact ⟨c, hc, rfl, rfl, fun _ => rfl⟩
  case link c _ hc _ _ _ _ | attach c _ _ _ hc _ _ | unlink c hc _ =>
    cases hx
    exact ⟨c, hc, rfl, rfl, id⟩
  case release | destroy | drop => cases hx

end Act.Step

namespace Looper

variable {s s' : Looper} {r p : Ref} {c c' : ASocket} {a : Action} {b : Act}

-- The ids that were given out are below the next one.
structure Ids (s : Looper) : Prop where
  next   : s.localSocketNextId ≠ 0
  id     : ∀ r c, s.sock r = some c → c.ops.isLocal → c.id ≠ 0 ∧ c.id < s.localSocketNextId
  unique : ∀ r r' c c', s.sock r = some c → s.sock r' = some c' → c.ops.isLocal → c'.ops.isLocal →
    c.id = c'.id → r = r'

namespace Ids

theorem create (i : s.Ids) (hi : c.ops.isLocal → c.id = s.localSocketNextId)
    (hn : c.ops.isLocal → s.localSocketNextId + 1 ≠ 0) : (s.create c).Ids := by
  have ⟨next, id, unique⟩ := i
  have hid : (s.create c).localSocketNextId =
      if c.ops.isLocal then s.localSocketNextId + 1 else s.localSocketNextId := rfl
  have hlt (hl : c.ops.isLocal) : s.localSocketNextId < s.localSocketNextId + 1 := by
    have := hn hl
    grind
  constructor
  case next => grind
  case id =>
    intro r c' hr
    have := id r c'
    grind [sock_create]
  case unique =>
    intro r r' c₁ c₂ hr hr'
    have := id r c₁
    have := id r' c₂
    have := unique r r' c₁ c₂
    grind [sock_create]

theorem congr (i : s.Ids) (hn : s'.localSocketNextId = s.localSocketNextId)
    (h : ∀ r c', s'.sock r = some c' → ∃ c, s.sock r = some c ∧ c'.id = c.id ∧
      c'.ops.isLocal = c.ops.isLocal ∧ (c.closing → c'.closing)) : s'.Ids where
  next := hn ▸ i.next
  id r c' hr hl := by
    have ⟨c, hc, hid, ho, _⟩ := h r c' hr
    rw [hid, hn]
    exact i.id r c hc (ho ▸ hl)
  unique r₁ r₂ c₁' c₂' hr₁ hr₂ hl₁ hl₂ he := by
    have ⟨c₁, hc₁, hid₁, ho₁, _⟩ := h r₁ c₁' hr₁
    have ⟨c₂, hc₂, hid₂, ho₂, _⟩ := h r₂ c₂' hr₂
    exact i.unique r₁ r₂ c₁ c₂ hc₁ hc₂ (ho₁ ▸ hl₁) (ho₂ ▸ hl₂) (hid₁ ▸ hid₂ ▸ he)

-- The process ends before an id is given out twice.
theorem act (w : s.WF) (i : s.Ids) (h : Act.Step s b s') : s'.aborted.isSome ∨ s'.Ids := by
  by_cases hb : ∃ r, b = .create r
  case pos =>
    obtain ⟨r, rfl⟩ := hb
    cases h
    case create c f hi =>
      by_cases hn : c.ops.isLocal ∧ s.localSocketNextId + 1 = 0
      case pos => exact .inl ((hi hn.left).right hn.right)
      case neg => exact .inr <| i.create (fun hl => (hi hl).left) fun hl => (hn ⟨hl, ·⟩)
  case neg =>
    have hb : ∀ r, b ≠ .create r := fun r hr => hb ⟨r, hr⟩
    exact .inr <| i.congr (h.frame.nextId hb) fun r c' hr => h.origin w hb hr

theorem initial : ({} : Looper).Ids where
  next := by simp
  id r c hr := by cases hr
  unique r r' c c' hr := by cases hr

end Ids

theorem Moves.queue (m : s.Moves r b x y z)
    (k : ∀ c ∈ s.sock r, c.ops.isLocal = false → c.packetQueue = []) :
    ∀ c ∈ x, c.ops.isLocal = false → c.packetQueue = [] := by
  cases m
  case create h =>
    rintro c ⟨⟩ _
    exact h.queue
  case socket c a es c' hr h =>
    rintro _ ⟨⟩ l
    have l' : c.ops.isLocal = false := h.preserves_kind.left.symm.trans l
    have hq := k c hr l'
    cases h
    case tend | switch => exact hq
    all_goals simp_all
  all_goals grind

-- The socket table at the end of an event, a packet or a task.
structure TableSound (s : Looper) : Prop where
  id       : ∀ r c, s.sock r = some c → c.ops.isLocal → c.id ≠ 0
  distinct : ∀ r r' c c', s.sock r = some c → s.sock r' = some c' → c.ops.isLocal →
    c'.ops.isLocal → c.id = c'.id → r = r'
  lists    : (s.localSocketList ++ s.localSocketClosingList).Nodup
  peer     : ∀ r c p, s.sock r = some c → c.peer = some p → ∃ d, s.sock p = some d ∧ d.peer = some r
  closing  : ∀ r ∈ s.localSocketClosingList, ∃ c, s.sock r = some c ∧ c.peer = none
  armed    : ∀ r c, s.sock r = some c → c.packetQueue ≠ [] → c.hasWriteError = false → c.fdeWrite

structure Table (s : Looper) : Prop where
  ids    : s.aborted.isSome ∨ s.Ids
  lists  : s.Lists
  queues : ∀ r, ∀ c ∈ s.sock r, c.ops.isLocal = false → c.packetQueue = []
  check  : s.aborted ≠ some .closingNotArmed

namespace Table

theorem act {s₀ : Looper} (w : s.WF) (k : s.Table) (hb : s₀.Allowed a s b) (h : Act.Step s b s') :
    s'.Table where
  ids := by
    rcases k.ids with ha | i
    · exact .inl (h.stays_aborted ha)
    · exact i.act w h
  lists := k.lists.act w h
  queues r := (h.moves w).queue (k.queues r)
  check := by
    by_cases hx : ∃ x, b = .abort x
    case pos =>
      obtain ⟨x, rfl⟩ := hx
      cases h
      have := k.check
      have := hb.right
      cases ha : s.aborted <;> simp_all [abort]
    case neg => exact h.frame.aborted (fun x hb => hx ⟨x, hb⟩) ▸ k.check

theorem next (w : s.WF) (k : s.Table) (h : s.next a = some s') : s'.Table :=
  preserved_by_next w h (fun _ _ _ w₁ hb hs k => k.act w₁ hb hs) k

theorem initial : ({} : Looper).Table where
  ids := .inr .initial
  lists := .initial
  queues r c hr := by cases hr
  check := by simp

theorem runs (h : Reachable P s) : s.Table :=
  preserved_by_runs .initial h (fun _ _ _ w _ hs k => k.next w hs) .initial

theorem sound (w : s.WF) (k : s.Table) (ha : s.aborted = none) : s.TableSound := by
  have i : s.Ids := k.ids.resolve_left (by simp [ha])
  constructor
  case id => exact fun r c hr l => (i.id r c hr l).left
  case distinct => exact i.unique
  case lists => exact k.lists.nodup
  case peer =>
    intro r c p hr cp
    have ⟨d, hd, link⟩ := w.peer r c p hr cp
    exact ⟨d, hd, link.symm⟩
  case closing =>
    intro r hr
    have ⟨c, hc, hcl⟩ := (k.lists.closing r).mp hr
    exact ⟨c, hc, ((w.sound r c hc).closing hcl).left⟩
  case armed =>
    intro r c hr hq he
    have l : c.ops.isLocal := Bool.not_eq_false _ ▸ mt (k.queues r c hr) hq
    exact (w.sound r c hr).armed l (by simp [ASocket.fdFull, hq, he])

end Table

-- The check of `local_socket_close` never ends the process, and the table is sound at the end of
-- every step that does not end it. Running out of socket ids does, so none is given out twice.
theorem table_sound (h : Reachable (fun _ _ => True) s) :
    s.aborted ≠ some .closingNotArmed ∧ (s.aborted = none → s.TableSound) :=
  have k := Table.runs h
  ⟨k.check, k.sound h.wf⟩

-- A stream is closed with data in its queue while another one is open.
theorem table_sound_of_closing_stream : ∃ s : Looper,
    s.localSocketList = [2] ∧ s.localSocketClosingList = [0] ∧ s.aborted = none ∧
    (s.sock 0).any (·.packetQueue = [1, 2, 3]) ∧ s.TableSound := by
  have ⟨s, hs, list, closing, ha, queue⟩ : ∃ s, Reachable (fun _ _ => True) s ∧
      s.localSocketList = [2] ∧ s.localSocketClosingList = [0] ∧ s.aborted = none ∧
      (s.sock 0).any (·.packetQueue = [1, 2, 3]) :=
    Reach.exists_of_exec [.packet 0 .connect {}, .openService 0 (ascii "shell:"),
      .packet 0 (.ofCommand .okay 9 1 [] (by decide)) {},
      .packet 0 (.ofCommand .wrte 9 1 [1, 2, 3] (by decide)) { writev := fun _ _ => .again },
      .packet 0 (.ofCommand .clse 9 1 [] (by decide)) {},
      .openService 0 (ascii "shell:")] (by decide +kernel)
  exact ⟨s, list, closing, ha, queue, (table_sound hs).right ha⟩

end Looper

namespace Server

-- Whatever the threads of the process do, its sockets change by acts of the abstract machine, each
-- with a cause in an action of the looper that the process performs.
theorem sockets_refine_acts (h : Reachable P v) :
    Acts (fun s b => ∃ u a c, Reachable P u ∧ P u a ∧ u.Performs a c ∧
      u.looper.Allowed c s b) {} v.looper ∧ (v.looper.aborted = none → v.looper.TableSound) := by
  refine ⟨?_, (Looper.Table.runs h.looper).sound h.wf⟩
  refine Reach.invariant_under (I := Reachable P) (J := fun v => Acts _ {} v.looper)
    (fun _ _ _ p hs r => r.tail p hs) (fun u a u' r p hs k => ?_) h .refl .refl
  rcases looper_next hs with idle | ⟨c, hc, performs⟩
  · rwa [idle]
  · exact k.trans ((Looper.next_acts r.wf hc).mono fun s b hb => ⟨u, a, c, r, p, performs, hb⟩)

theorem sockets_refine_acts_of_session : ∃ v : Server, v.looper.localSocketList = [0] ∧
    Acts (fun _ _ => True) {} v.looper := by
  have ⟨v, h, list⟩ : ∃ v, Reachable (fun _ _ => True) v ∧ v.looper.localSocketList = [0] :=
    Reach.exists_of_exec [.connect (ascii "a:1"), .connectDevice 0 (some (ascii "a:1")), .run {},
      .read 0 .connect, .run {}, .waitForConnection 0 false, .finishClientConnect 0 false,
      .startSession 0 (ascii "shell:"), .postSession 0, .run {}] (by decide +kernel)
  exact ⟨v, list, (sockets_refine_acts h).left.mono fun _ _ _ => trivial⟩

end Server

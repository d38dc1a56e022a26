import LibAdb.Execution.Client
import LibAdb.Library.Threads

-- The steps of the calls and of the connect threads, one case each.

namespace Client

inductive DeviceSteps (c : Client) (i : Nat) (d : AdbDevice) :
    DevicePoint → Client → Option DevicePoint → Prop
  | closed (h : d.closed) : DeviceSteps c i d .mark c none
  | mark (h : d.closed = false) :
    DeviceSteps c i d .mark (c.modifyDevice i ({ · with closed := true })) (some .find)
  | lost (h : c.findTransport d.serial = none) : DeviceSteps c i d .find c (some .notify)
  | found (h : c.findTransport d.serial = some t) : DeviceSteps c i d .find c (some (.kick t))
  | kick : DeviceSteps c i d (.kick t) (c.kickTransport t) (some .notify)
  | notify :
    DeviceSteps c i d .notify
      (c.modifyImpl i fun e =>
        { e with listener := e.listener.onConnectionStateChanged d.serial .detached }) none

inductive Checks (c : Client) : Call → Call → Prop
  | connect (h : c.initialized) : Checks c (.connect address) (.lookUp address)
  | uninitialized : Checks c (.connect address) (.returned none)
  | lookUp (h : c.hasDevice address = false) : Checks c (.lookUp address) (.acquire address)
  | present : Checks c (.lookUp address) (.returned none)
  | noSlot : Checks c (.acquire address) (.returned none)
  | online (hd : c.impls[i]? = some d) (h : d.listener.online) : Checks c (.wait i) (.remember i)
  | offline (hd : c.impls[i]? = some d) : Checks c (.wait i) (.close i .lock .discard)
  | marked (hd : c.impls[i]? = some d) (h : d.closed) :
    Checks c (.close i .mark after) (.close i .release after)
  | released (hd : c.impls[i]? = some d) (h : d.releaseSlot = false) :
    Checks c (.close i .release after) (.close i .unlock after)
  | nextDevice : Checks c (.closeEach (i :: rest) shutdown) (.close i .lock (.next rest shutdown))
  | closedAll : Checks c (.closeEach [] false) (.returned none)
  | shutdown : Checks c (.closeEach [] true) .clearInitialized
  | notInitialized : Checks c .clearInitialized (.returned none)
  | notRunning : Checks c .stopManager (.returned none)
  | stopNext : Checks c (.stopEach (i :: rest)) (.stopDevice i .mark rest)
  | operated : Checks c (.operate i) (.returned none)

def closedTo (i : Nat) (after : AfterClose) : Option DevicePoint → Call
  | some p => .close i (.device p) after
  | none   => .close i .release after

def stoppedTo (i : Nat) (rest : List Nat) : Option DevicePoint → Call
  | some p => .stopDevice i p rest
  | none   => .stopEach rest

inductive Steps (c : Client) : Call → Client → Call → Prop
  | check (h : Checks c call call') : Steps c call c call'
  | acquire (h : c.slots.hasRoom) :
    Steps c (.acquire address) { c with slots := c.slots.acquire } (.build address)
  | build :
    Steps c (.build address)
      { c with impls := c.impls ++ [{ addressKey := address, listener := { serial := address } }] }
      (.register c.impls.length)
  | busy (hd : c.impls[i]? = some d) (h : c.hasDevice d.addressKey) :
    Steps c (.register i) (c.modifyImpl i ({ · with closed := true })) (.discard i)
  | register (hd : c.impls[i]? = some d) (hr : c.registryHeld = false)
    (h : c.hasDevice d.addressKey = false) :
    Steps c (.register i)
      ({ c with registry := c.registry ++ [(d.addressKey, i)] }.modifyImpl i fun e => { e with
        device   := some { serial := d.addressKey }
        listener := e.listener.onConnectionStateChanged e.addressKey .connecting })
      (.wait i)
  | remember :
    Steps c (.remember i)
      { c with
        impls      := (c.modifyImpl i ({ · with life := .alive })).impls
        remembered := c.remembered.filter (c.modifyImpl i ({ · with life := .alive })).isAlive ++ [i] }
      (.returned (some i))
  | lock (hd : c.impls[i]? = some d) (h : d.locked = false) :
    Steps c (.close i .lock after) (c.modifyImpl i ({ · with locked := true })) (.close i .mark after)
  | mark (hd : c.impls[i]? = some d) (h : d.closed = false) :
    Steps c (.close i .mark after) (c.modifyImpl i ({ · with closed := true }))
      (.close i (if d.device.isSome then .unregister else .release) after)
  | unregister (hd : c.impls[i]? = some d) (hr : c.registryHeld = false) :
    Steps c (.close i .unregister after)
      { c with registry := c.registry.filter (· != (d.addressKey, i)) }
      (.close i (.device .mark) after)
  | device (hd : c.impls[i]? = some d) (he : d.device = some e) (h : DeviceSteps c i e p c' o) :
    Steps c (.close i (.device p) after) c' (closedTo i after o)
  | release (hd : c.impls[i]? = some d) (h : d.releaseSlot) :
    Steps c (.close i .release after) (c.modifyImpl i ({ · with releaseSlot := false }))
      (.close i .free after)
  | free (hd : c.impls[i]? = some d) :
    Steps c (.close i .free after) { c with slots := c.slots.release, freed := c.freed ++ [i] }
      (.close i .unlock after)
  | unlock (hd : c.impls[i]? = some d) :
    Steps c (.close i .unlock after) (c.modifyImpl i ({ · with locked := false }))
      (afterClose i after)
  | discard : Steps c (.discard i) (c.modifyImpl i ({ · with life := .dying })) (.close i .lock .destroy)
  | destroyed : Steps c (.destroyed i) (c.modifyImpl i ({ · with life := .dead })) (.returned none)
  | snapshot :
    Steps c (.closeAll shutdown) { c with remembered := [] }
      (.closeEach (c.remembered.filter c.isAlive) shutdown)
  | clearInitialized : Steps c .clearInitialized { c with initialized := false } .stopManager
  | hold (hr : c.registryHeld = false) :
    Steps c .stopManager { c with registryHeld := true } (.stopEach (c.registry.map (·.2)))
  | clear : Steps c (.stopEach []) { c with registry := [], registryHeld := false } .stopLoop
  | stopDevice (hd : c.impls[i]? = some d) (he : d.device = some e) (h : DeviceSteps c i e p c' o) :
    Steps c (.stopDevice i p rest) c' (stoppedTo i rest o)
  | stopLoop : Steps c .stopLoop { c with running := false } (.returned none)

section

variable {c c' : Client}

theorem closeDevice_steps : DeviceSteps c i d p (c.closeDevice i d p).1 (c.closeDevice i d p).2 := by
  cases p
  case mark =>
    by_cases h : d.closed
    case pos => simpa [closeDevice, h] using DeviceSteps.closed h
    case neg => simpa [closeDevice, h] using DeviceSteps.mark (Bool.eq_false_iff.mpr h)
  case find =>
    simp only [closeDevice]
    split
    case h_1 h => exact .lost h
    case h_2 h => exact .found h
  case kick => exact .kick
  case notify => exact .notify

theorem close_steps (hd : c.impls[i]? = some d) (h : c.close i d after p = some (c', call)) :
    Steps c (.close i p after) c' call := by
  cases p
  case lock =>
    simp only [close, Option.ite_none_left_eq_some, Option.some.injEq, Prod.mk.injEq] at h
    obtain ⟨hl, rfl, rfl⟩ := h
    exact .lock hd (Bool.eq_false_iff.mpr hl)
  case mark =>
    simp only [close] at h
    split at h <;> cases h
    case isTrue hc => exact .check (.marked hd hc)
    case isFalse hc => exact .mark hd (Bool.eq_false_iff.mpr hc)
  case unregister =>
    simp only [close, Option.ite_none_left_eq_some, Option.some.injEq, Prod.mk.injEq] at h
    obtain ⟨hr, rfl, rfl⟩ := h
    exact .unregister hd (Bool.eq_false_iff.mpr hr)
  case device p =>
    simp only [close, Option.map_eq_some_iff] at h
    obtain ⟨e, he, h⟩ := h
    have hs : Steps c (.close i (.device p) after) (c.closeDevice i e p).1
      (closedTo i after (c.closeDevice i e p).2) := .device hd he closeDevice_steps
    revert hs h
    generalize c.closeDevice i e p = r
    obtain ⟨c', o⟩ := r
    cases o <;> intro h <;> cases h <;> exact id
  case release =>
    simp only [close] at h
    split at h <;> cases h
    case isTrue hr => exact .release hd hr
    case isFalse hr => exact .check (.released hd (Bool.eq_false_iff.mpr hr))
  case free =>
    cases h
    exact .free hd
  case unlock =>
    cases h
    exact .unlock hd

theorem register_steps (hd : c.impls[i]? = some d) (h : c.register i d = some (c', call)) :
    Steps c (.register i) c' call := by
  simp only [register, Option.ite_none_left_eq_some] at h
  obtain ⟨hr, h⟩ := h
  split at h <;> cases h
  case isTrue hb => exact .busy hd hb
  case isFalse hb => exact .register hd (Bool.eq_false_iff.mpr hr) (Bool.eq_false_iff.mpr hb)

theorem resume_steps (h : c.resume b call = some (c', call')) : Steps c call c' call' := by
  cases call
  case connect =>
    cases h
    by_cases hi : c.initialized
    case pos => simpa [hi] using Steps.check (.connect hi)
    case neg => simpa [hi] using Steps.check .uninitialized
  case lookUp address =>
    simp only [resume, Option.ite_none_left_eq_some, Option.some.injEq, Prod.mk.injEq] at h
    obtain ⟨-, rfl, rfl⟩ := h
    by_cases hi : c.hasDevice address
    case pos => simpa [hi] using Steps.check .present
    case neg => simpa [hi] using Steps.check (.lookUp (Bool.eq_false_iff.mpr hi))
  case acquire =>
    simp only [resume] at h
    split_ifs at h with hr
    all_goals cases h
    · exact .acquire hr
    · exact .check .noSlot
  case build =>
    cases h
    exact .build
  case register =>
    obtain ⟨d, hd, h⟩ := Option.bind_eq_some_iff.mp h
    exact register_steps hd h
  case wait =>
    simp only [resume, Option.bind_eq_some_iff, Option.map_eq_some_iff, Prod.mk.injEq] at h
    obtain ⟨d, hd, status, hs, rfl, rfl⟩ := h
    split
    case isTrue ho =>
      refine .check (.online hd ?_)
      subst ho
      revert hs
      unfold Server.waitUntilOnline
      cases d.listener.online <;> cases d.listener.authRequired <;> cases d.listener.failed <;>
        cases b <;> simp
    case isFalse => exact .check (.offline hd)
  case remember =>
    cases h
    exact .remember
  case close =>
    obtain ⟨d, hd, h⟩ := Option.bind_eq_some_iff.mp h
    exact close_steps hd h
  case discard =>
    cases h
    exact .discard
  case destroyed =>
    cases h
    exact .destroyed
  case closeAll =>
    cases h
    exact .snapshot
  case closeEach rest shutdown =>
    cases rest <;> cases h
    case cons => exact .check .nextDevice
    case nil =>
      cases shutdown
      case true => exact .check .shutdown
      case false => exact .check .closedAll
  case clearInitialized =>
    simp only [resume] at h
    split at h <;> cases h
    case isTrue => exact .clearInitialized
    case isFalse => exact .check .notInitialized
  case stopManager =>
    simp only [resume] at h
    split_ifs at h with hr hh
    all_goals cases h
    · exact .check .notRunning
    · exact .hold (Bool.eq_false_iff.mpr hh)
  case stopEach rest =>
    cases rest <;> cases h
    case cons => exact .check .stopNext
    case nil => exact .clear
  case stopDevice i p rest =>
    simp only [resume, Option.map_eq_some_iff, Option.bind_eq_some_iff] at h
    obtain ⟨e, ⟨d, hd, he⟩, h⟩ := h
    have hs : Steps c (.stopDevice i p rest) (c.closeDevice i e p).1
      (stoppedTo i rest (c.closeDevice i e p).2) := .stopDevice hd he closeDevice_steps
    revert hs h
    generalize c.closeDevice i e p = r
    obtain ⟨c', o⟩ := r
    cases o <;> intro h <;> cases h <;> exact id
  case stopLoop =>
    cases h
    exact .stopLoop
  case operate =>
    cases h
    exact .check .operated
  case returned => cases h

end

def goTo (c : Client) (i : Nat) (stage : ConnectStage) : Client :=
  c.modifyDevice i ({ · with thread := stage })

inductive ThreadSteps (c : Client) (i : Nat) (d : AdbDevice) : Client → Prop
  | refused (hs : d.thread = .connecting) : ThreadSteps c i d (c.goTo i (.answered false))
  | already (hs : d.thread = .connecting) (h : c.isRegistered d.serial) :
    ThreadSteps c i d (c.goTo i (.answered true))
  | enroll (hs : d.thread = .connecting) (h : c.isRegistered d.serial = false) :
    ThreadSteps c i d
      (goTo { c with transports := c.transports ++ [{ serial := d.serial }] } i .waiting)
  | answer (hs : d.thread = .waiting) : ThreadSteps c i d (c.goTo i (.answered b))
  | report (hs : d.thread = .answered b) (h : d.closed = false) :
    ThreadSteps c i d
      ((c.modifyImpl i fun e => { e with
        listener := if b then e.listener.onConnectionStateChanged d.serial .device
          else e.listener.onError }).goTo i .finished)
  | forget (hs : d.thread = .answered false) (h : d.closed) : ThreadSteps c i d (c.goTo i .finished)
  | unwanted (hs : d.thread = .answered true) (h : d.closed) : ThreadSteps c i d (c.goTo i .unwanted)
  | lost (hs : d.thread = .unwanted) (h : c.findTransport d.serial = none) :
    ThreadSteps c i d (c.goTo i .finished)
  | found (hs : d.thread = .unwanted) (h : c.findTransport d.serial = some t) :
    ThreadSteps c i d (c.goTo i (.kicking t))
  | kick (hs : d.thread = .kicking t) : ThreadSteps c i d ((c.kickTransport t).goTo i .finished)

theorem resumeThread_steps {c c' : Client} (h : c.resumeThread i d b = some c') :
    ThreadSteps c i d c' := by
  simp only [resumeThread] at h
  split at h
  case h_1 hs =>
    split_ifs at h with hb hr
    all_goals cases h
    · exact .refused hs
    · exact .already hs hr
    · exact .enroll hs (Bool.eq_false_iff.mpr hr)
  case h_2 hs =>
    cases h
    exact .answer hs
  case h_3 connected hs =>
    by_cases hc : d.closed
    case pos =>
      rw [if_pos hc] at h
      cases connected <;> cases h
      case true => exact .unwanted hs hc
      case false => exact .forget hs hc
    case neg =>
      rw [if_neg hc] at h
      cases h
      exact .report hs (Bool.eq_false_iff.mpr hc)
  case h_4 hs =>
    split at h <;> cases h
    case h_1 hf => exact .lost hs hf
    case h_2 hf => exact .found hs hf
  case h_5 hs =>
    cases h
    exact .kick hs
  case h_6 => cases h

-- The part of an `Impl` that only its calls change.
def own (d : DeviceImpl) : DeviceImpl :=
  { d with device := none, listener := { serial := [] } }

structure Within (c c' : Client) : Prop where
  frame : c' = { c with transports := c'.transports, impls := c'.impls }
  impls : c'.impls.map own = c.impls.map own

theorem impls_modifyImpl {c : Client} {i j : Nat} {f : DeviceImpl → DeviceImpl} :
    (c.modifyImpl i f).impls[j]? = if i = j then (c.impls[j]?).map f else c.impls[j]? := by
  simp only [modifyImpl, List.getElem?_modify]
  split <;> simp

section

variable {c c' : Client} {i : Nat} {f : DeviceImpl → DeviceImpl} {p : DeviceImpl → Bool}

@[simp]
theorem slots_modifyImpl : (c.modifyImpl i f).slots = c.slots :=
  rfl

@[simp]
theorem freed_modifyImpl : (c.modifyImpl i f).freed = c.freed :=
  rfl

@[simp]
theorem registry_modifyImpl : (c.modifyImpl i f).registry = c.registry :=
  rfl

@[simp]
theorem length_modifyImpl : (c.modifyImpl i f).impls.length = c.impls.length := by
  simp [modifyImpl]

theorem any_modifyImpl (h : ∀ d, p (f d) = p d) :
    ((c.modifyImpl j f).impls[i]?).any p = (c.impls[i]?).any p := by
  rw [impls_modifyImpl]
  split
  · cases c.impls[i]? <;> simp [h]
  · rfl

theorem isSome_modifyImpl : ((c.modifyImpl j f).impls[i]?).isSome = (c.impls[i]?).isSome := by
  rw [impls_modifyImpl]
  split <;> simp

namespace Within

theorem refl : c.Within c where
  frame := rfl
  impls := rfl

theorem of_transports {ts : List Registration} : c.Within { c with transports := ts } where
  frame := rfl
  impls := rfl

theorem modifyImpl (h : ∀ d, own (f d) = own d) : c.Within (c.modifyImpl i f) where
  frame := rfl
  impls := List.map_modify_of_comp h

theorem trans (h₁ : c.Within c₁) (h₂ : c₁.Within c') : c.Within c' where
  frame := by rw [h₂.frame, h₁.frame]
  impls := h₂.impls.trans h₁.impls

theorem goTo : c.Within (c.goTo i stage) :=
  modifyImpl fun _ => rfl

theorem length (h : c.Within c') : c'.impls.length = c.impls.length := by
  simpa using congrArg List.length h.impls

theorem any (h : c.Within c') (hp : ∀ d, p (own d) = p d) :
    (c'.impls[i]?).any p = (c.impls[i]?).any p := by
  have view (l : List DeviceImpl) : (l[i]?).any p = ((l.map own)[i]?).any p := by
    rw [List.getElem?_map]
    cases l[i]? <;> simp [hp]
  rw [view, view c.impls, h.impls]

end Within

theorem DeviceSteps.within (h : DeviceSteps c i d q c' o) : c.Within c' := by
  cases h
  case closed | lost | found => exact .refl
  case mark | notify => exact .modifyImpl fun _ => rfl
  case kick => exact .of_transports

theorem ThreadSteps.within (h : ThreadSteps c i d c') : c.Within c' := by
  cases h
  case enroll => exact Within.of_transports.trans .goTo
  case report =>
    refine Within.trans ?_ .goTo
    exact .modifyImpl fun _ => rfl
  case kick => exact Within.of_transports.trans .goTo
  all_goals exact .goTo

end

end Client

namespace Application

inductive Enters (s : Application) : Action → Call → Prop
  | connect : Enters s (.connect address) (.connect address)
  | close (h : s.client.isAlive i) : Enters s (.close i) (.close i .lock .finish)
  | closeAll : Enters s (.closeAll shutdown) (.closeAll shutdown)
  | operate (h : s.client.isAlive i) : Enters s (.operate i) (.operate i)

inductive Loops (c : Client) : Action → Client → Prop
  | list : Loops c (.list t) { c with transports := c.transports.modify t ({ · with listed := true }) }
  | delete (h : (c.transports[t]?).any (·.kicked)) :
    Loops c (.delete t) { c with transports := c.transports.modify t ({ · with deleted := true }) }
  | kick : Loops c (.kick t) (c.kickTransport t)

inductive Moves (s : Application) : Action → Application → Prop
  | configure : Moves s (.configure n) { s with client := { s.client with
      slots := { s.client.slots with limit := n }
      running := s.client.running || !s.client.initialized
      initialized := true } }
  | setMaxConnections :
    Moves s (.setMaxConnections n)
      { s with client := { s.client with slots := { s.client.slots with limit := n } } }
  | enter (h : s.Enters a call) : Moves s a (s.enter call)
  | drop (h : s.client.isAlive i) (hu : ∀ call ∈ s.calls, call.uses i = false) :
    Moves s (.drop i)
      { client := s.client.modifyImpl i ({ · with life := .dying })
        calls  := s.calls ++ [.close i .lock .destroy] }
  | resume (hk : s.calls[k]? = some call) (h : s.client.Steps call c' call') :
    Moves s (.resume k b) { client := c', calls := s.calls.set k call' }
  | thread (hd : s.client.impls[i]? = some d) (he : d.device = some e)
    (h : s.client.ThreadSteps i e c') : Moves s (.thread i b) { s with client := c' }
  | loop (h : Loops s.client a c') : Moves s a { s with client := c' }

theorem next_moves {s s' : Application} (h : s.next a = some s') : s.Moves a s' := by
  cases a
  case configure =>
    cases h
    exact .configure
  case setMaxConnections =>
    cases h
    exact .setMaxConnections
  case connect =>
    cases h
    exact .enter .connect
  case close =>
    simp only [next, Option.ite_none_right_eq_some, Option.some.injEq] at h
    obtain ⟨ha, rfl⟩ := h
    exact .enter (.close ha)
  case drop =>
    simp only [next, Option.ite_none_right_eq_some, Option.some.injEq, Bool.and_eq_true,
      Bool.not_eq_true', List.any_eq_false] at h
    obtain ⟨⟨ha, hu⟩, rfl⟩ := h
    exact .drop ha fun call hc => Bool.eq_false_iff.mpr (hu call hc)
  case closeAll =>
    cases h
    exact .enter .closeAll
  case operate =>
    simp only [next, Option.ite_none_right_eq_some, Option.some.injEq, Bool.and_eq_true] at h
    obtain ⟨⟨ha, -⟩, rfl⟩ := h
    exact .enter (.operate ha)
  case resume k b =>
    simp only [next, Option.bind_eq_some_iff, Option.map_eq_some_iff] at h
    obtain ⟨call, hk, ⟨c', call'⟩, hr, rfl⟩ := h
    exact .resume hk (Client.resume_steps hr)
  case thread i b =>
    simp only [next, Option.bind_eq_some_iff, Option.map_eq_some_iff] at h
    obtain ⟨e, ⟨d, hd, he⟩, c', hr, rfl⟩ := h
    exact .thread hd he (Client.resumeThread_steps hr)
  case list =>
    simp only [next, Option.ite_none_right_eq_some, Option.some.injEq] at h
    obtain ⟨-, rfl⟩ := h
    exact .loop .list
  case delete =>
    simp only [next, Option.ite_none_right_eq_some, Option.some.injEq] at h
    obtain ⟨hk, rfl⟩ := h
    exact .loop (.delete hk)
  case kick =>
    cases h
    exact .loop .kick

end Application

import LibAdb.Execution.Registry
import Mathlib.Data.List.Count
import Mathlib.Data.List.Nodup
import Mathlib.Data.List.Perm.Basic

namespace RegistryTask

@[simp]
theorem transport_register {t : Nat} : (register t).transport = t :=
  rfl

@[simp]
theorem transport_destroy {t : Nat} : (destroy t).transport = t :=
  rfl

@[simp]
theorem transport_remove {t : Nat} : (remove t).transport = t :=
  rfl

end RegistryTask

namespace Registry

def inHand : Option HandlerPoint → List ReconnectAttempt
  | some (.attempt a) => [a]
  | _ => []

def checked (s : Registry) : Option ReconnectAttempt :=
  match s.handler with
  | some (.scan (_ + 1)) | some .scanned => s.queue.head?
  | some (.attempt q) => some q
  | _ => none

-- What a step does. The attempt that was checked, if it is not the scan that goes on, is dropped or
-- stays.
inductive Moves (s : Registry) : Action → Registry → Prop
  | flags {aborted running stopping : Bool} : s.Moves a { s with aborted, running, stopping }
  | add {socket : Bool} (free : s.heap t = none) (new : socket →
      ∀ u ∈ s.pendingList ++ s.transportList, ∀ x, s.heap u = some x → x.serial ≠ serial) :
    s.Moves a (s.addTransport t serial socket)
  | register (hc : s.calls.contains t) :
    s.Moves a { s with calls := s.calls.erase t, tasks := s.tasks ++ [.register t] }
  | unlist : s.Moves a { s with transportList := s.transportList.filter (· ≠ t) }
  | kick (hx : s.heap t = some x) :
    s.Moves (.kick t) { s with heap := Function.update s.heap t (some { x with kicked := true }) }
  | fail (hl : s.live.contains t) :
    s.Moves a { s with live := s.live.erase t, tasks := s.tasks ++ [.destroy t] }
  | enlist {tasks : List RegistryTask} (ht : s.tasks = .register t :: tasks) :
    s.Moves a ({ s with tasks }.fdeventRegisterTransport t)
  | track {tasks : List RegistryTask} (ht : s.tasks = .destroy t :: tasks) (unlocked : ¬s.isLocked) :
    s.Moves a { { s with tasks }.insertAttempt ⟨t, maxAttempts, s.losses⟩ place with
      losses := s.losses + 1 }
  | forget {tasks : List RegistryTask} (ht : s.tasks = .destroy t :: tasks) : s.Moves a { s with tasks }
  | remove {tasks : List RegistryTask} (ht : s.tasks = .destroy t :: tasks) : s.Moves a ({ s with tasks }.removeTransport t)
  | delete {tasks : List RegistryTask} (ht : s.tasks = .remove t :: tasks) :
    s.Moves a ({ s with tasks }.fdeventUnregisterTransport t)
  | move {handler : Option HandlerPoint} (hand : inHand handler = inHand s.handler)
      (unchecked : ({ s with handler } : Registry).checked = none) : s.Moves a { s with handler }
  | pass (hh : s.handler = some (.scan n))
      (spared : ∀ q, s.queue[n]? = some q → ¬s.isKicked q.transport)
      (hp : point = .scan (n + 1) ∨ point = .scanned) : s.Moves a { s with handler := some point }
  | giveUp {queue : List ReconnectAttempt} (hq : s.queue.Perm (q :: queue))
      (kept : ∀ p, ({ s with queue } : Registry).checked = some p → s.checked = some p) :
    s.Moves a ({ s with queue }.removeTransport q.transport)
  | take {queue : List ReconnectAttempt} (hh : s.handler = some .scanned) (hq : s.queue = q :: queue) :
    s.Moves a { s with handler := some (.attempt q), queue, attempts := s.attempts ++ [q.loss] }
  | conclude (hh : s.handler = some (.attempt q)) :
    s.Moves a ({ s with handler := some .waiting }.conclude q place result)

variable {s s' : Registry} {a : Action} {t u place : Nat} {serial : String}

section Moves

theorem eraseIdx_perm {queue : List ReconnectAttempt} {n : Nat} (h : queue[n]? = some q) :
    (q :: queue.eraseIdx n).Perm queue := by
  obtain ⟨hn, rfl⟩ := List.getElem?_eq_some_iff.mp h
  exact List.getElem_cons_eraseIdx_perm hn

theorem loop_moves (h : s.loop place = some s') : s.Moves a s' := by
  rw [loop] at h
  split at h
  case isTrue => cases h
  case isFalse =>
    split at h
    case h_1 => cases h
    case h_2 ht =>
      cases h
      exact .enlist ht
    case h_3 ht =>
      rw [transportDestroy, trackTransport] at h
      split at h
      case isTrue =>
        split at h
        case isTrue => cases h
        case isFalse unlocked =>
          split at h <;> cases h
          case isTrue => exact .track ht unlocked
          case isFalse => exact .forget ht
      case isFalse =>
        cases h
        exact .remove ht
    case h_4 ht =>
      cases h
      exact .delete ht

theorem drain_moves (h : s.drain = some s') : s.Moves a s' := by
  rw [drain] at h
  split at h
  case isTrue => cases h
  case isFalse =>
    split at h <;> cases h
    case h_1 hh => exact .move (by rw [hh]; rfl) rfl
    case h_3 hh hq =>
      refine .giveUp (.of_eq hq) fun p hp => ?_
      simp only [checked, hh] at hp
      cases hp
    case h_4 => exact .flags

theorem handle_moves (h : s.handle due result place = some s') : s.Moves a s' := by
  rw [handle] at h
  split at h
  case h_1 hh =>
    cases h
    refine .move ?_ ?_
    · rw [hh]
      split <;> rfl
    · cases s.running <;> rfl
  case h_2 n hh =>
    split at h
    case h_1 q hq =>
      split at h <;> cases h
      case isTrue =>
        refine .giveUp (eraseIdx_perm hq).symm fun p hp => ?_
        -- A scan that has left the first attempt behind does not touch it.
        cases n <;> simp only [checked, hh] at hp ⊢
        case zero => cases hp
        case succ => cases hs : s.queue <;> rwa [hs] at hp
      case isFalse spared =>
        refine .pass hh (fun p hp => ?_) (.inl rfl)
        cases hq.symm.trans hp
        exact spared
    case h_2 hn =>
      cases h
      exact .pass hh (fun p hp => by cases hn.symm.trans hp) (.inr rfl)
  case h_3 hh =>
    split at h
    case h_1 =>
      cases h
      exact .move (by rw [hh]; rfl) rfl
    case h_2 hq =>
      split at h <;> cases h
      case isTrue => exact .take hh hq
      case isFalse => exact .move (by rw [hh]; rfl) rfl
  case h_4 hh =>
    cases h
    exact .conclude hh
  case h_5 => cases h
  case h_6 => cases h

theorem step_moves (h : s.step a = some s') : s.Moves a s' := by
  cases a <;> rw [step] at h
  case registerSocketTransport =>
    rw [registerSocketTransport] at h
    split at h
    case isTrue => cases h
    case isFalse free =>
      split at h <;> cases h
      case isFalse => exact .flags
      case isTrue valid =>
        refine .add (by simpa using free) fun _ u hu x hx => ?_
        simp only [validateTransportList, ← List.all_append] at valid
        simpa [hx] using List.all_eq_true.mp valid u hu
  case registerUsbTransport =>
    rw [registerUsbTransport] at h
    split at h <;> cases h
    case isFalse free => exact .add (by simpa using free) nofun
  case registerTransport =>
    rw [registerTransport] at h
    split at h <;> cases h
    case isTrue hc => exact .register hc
  case unregisterUsbTransport =>
    rw [unregisterUsbTransport] at h
    split at h <;> cases h
    exact .unlist
  case kick =>
    obtain ⟨x, hx, rfl⟩ := Option.map_eq_some_iff.mp h
    exact .kick hx
  case handleError =>
    rw [handleError] at h
    split at h <;> cases h
    case isTrue hl => exact .fail hl
  case loop => exact loop_moves h
  case start =>
    rw [start] at h
    split at h
    case isTrue => cases h
    case isFalse =>
      split at h <;> cases h
      case isTrue => exact .flags
      case isFalse hn =>
        have hh : s.handler = none := by simpa using hn
        exact .move (by rw [hh]; rfl) rfl
  case stop =>
    rw [stop] at h
    split at h
    case isTrue => cases h
    case isFalse =>
      split at h <;> cases h
      all_goals exact .flags
  case drain => exact drain_moves h
  case handle => exact handle_moves h

theorem next_moves (h : s.next a = some s') : s.Moves a s' := by
  rw [next] at h
  split at h
  case isTrue => cases h
  case isFalse => exact step_moves h

end Moves

-- How much there is that will do something with a transport: registrations that are to be queued,
-- tasks, connections, attempts.
def uses (s : Registry) (t : Nat) : Nat :=
  s.calls.count t + (s.tasks.map (·.transport)).count t + s.live.count t
    + ((s.queue ++ inHand s.handler).map (·.transport)).count t

def Awaited (s : Registry) (t : Nat) : Prop :=
  t ∈ s.calls ∨ .register t ∈ s.tasks

def face (s : Registry) (t : Nat) : Option (Nat × String × Bool) :=
  (s.heap t).map fun x => (x.id, x.serial, x.socket)

def Distinct (s : Registry) : Prop :=
  ∀ t ∈ s.pendingList ++ s.transportList, ∀ u ∈ s.pendingList ++ s.transportList, ∀ i j serial,
    s.face t = some (i, serial, true) → s.face u = some (j, serial, true) → t = u

structure Sound (s : Registry) : Prop where
  once     : ∀ t, s.uses t ≤ 1
  awaited  : ∀ t ∈ s.pendingList, s.Awaited t
  nodup    : (s.pendingList ++ s.transportList).Nodup
  used     : ∀ t, s.uses t ≠ 0 → (s.face t).isSome
  listed   : ∀ t ∈ s.pendingList ++ s.transportList, (s.face t).isSome
  distinct : s.Distinct

section Counting

variable {q : ReconnectAttempt} {queue : List ReconnectAttempt}

theorem insert_perm : (queue.take place ++ q :: queue.drop place).Perm (q :: queue) := by
  refine List.perm_middle.trans ?_
  rw [List.take_append_drop]

theorem count_erase_add {l : List Nat} (h : l.contains t) :
    (l.erase t).count u + [t].count u = l.count u := by
  have := (List.perm_cons_erase (List.contains_iff_mem.mp h)).count_eq u
  rw [this, List.count_singleton, List.count_cons]

theorem count_tasks {tasks : List RegistryTask} {task : RegistryTask} :
    ((tasks ++ [task]).map (·.transport)).count u =
      (tasks.map (·.transport)).count u + [task.transport].count u := by
  rw [List.map_append, List.count_append]
  rfl

theorem uses_tail {task : RegistryTask} {tasks : List RegistryTask} (h : s.tasks = task :: tasks) :
    s.uses u = ({ s with tasks } : Registry).uses u + [task.transport].count u := by
  simp only [uses, h, List.map_cons, List.count_cons, List.count_nil]
  omega

theorem uses_removeTransport : (s.removeTransport t).uses u = s.uses u + [t].count u := by
  simp only [uses, removeTransport, count_tasks, RegistryTask.transport_remove]
  omega

theorem uses_dequeue (h : s.queue.Perm (q :: queue)) :
    s.uses u = ({ s with queue } : Registry).uses u + [q.transport].count u := by
  have := (h.map (·.transport)).count_eq u
  simp only [uses, List.map_append, List.map_cons, List.count_append, List.count_cons,
    List.count_nil] at this ⊢
  omega

theorem uses_insertAttempt (q : ReconnectAttempt) (place : Nat) :
    (s.insertAttempt q place).uses u = s.uses u + [q.transport].count u :=
  uses_dequeue insert_perm

theorem uses_handler {handler : Option HandlerPoint} (h : inHand handler = inHand s.handler) :
    ({ s with handler } : Registry).uses u = s.uses u := by
  rw [uses, h, uses]

theorem uses_attempt (h : s.handler = some (.attempt q)) :
    s.uses u = ({ s with handler := some .waiting } : Registry).uses u + [q.transport].count u := by
  simp only [uses, h, inHand, List.map_append, List.map_cons, List.map_nil, List.count_append,
    List.count_nil]
  omega

end Counting

namespace Sound

theorem keep (h : Sound s) (uses : ∀ t, s'.uses t ≤ s.uses t)
    (awaited : ∀ t, s.Awaited t → s'.Awaited t) (face : s'.face = s.face)
    (pending : s'.pendingList = s.pendingList) (list : s'.transportList = s.transportList) :
    Sound s' := by
  constructor
  case once => exact fun t => Nat.le_trans (uses t) (h.once t)
  case awaited =>
    rw [pending]
    exact fun t ht => awaited t (h.awaited t ht)
  case nodup =>
    rw [pending, list]
    exact h.nodup
  case used =>
    rw [face]
    exact fun t ht => h.used t (by have := uses t; omega)
  case listed =>
    rw [face, pending, list]
    exact h.listed
  case distinct =>
    rw [Distinct, face, pending, list]
    exact h.distinct

theorem fresh (h : Sound s) (free : s.heap t = none) :
    s.uses t = 0 ∧ t ∉ s.pendingList ++ s.transportList := by
  have none : ¬(s.face t).isSome := by simp [face, free]
  refine ⟨?_, fun hm => none (h.listed t hm)⟩
  by_contra hu
  exact none (h.used t hu)

theorem face_addTransport {socket : Bool} :
    (s.addTransport t serial socket).face u =
      if u = t then some (s.created, serial, socket) else s.face u := by
  simp only [face, addTransport, Function.update_apply]
  split <;> rfl

theorem uses_addTransport {socket : Bool} :
    (s.addTransport t serial socket).uses u = s.uses u + [t].count u := by
  simp only [uses, addTransport, List.count_cons, List.count_nil]
  omega

theorem addTransport {socket : Bool} (h : Sound s) (free : s.heap t = none)
    (new : socket → ∀ u ∈ s.pendingList ++ s.transportList, ∀ i,
      s.face u ≠ some (i, serial, true)) : Sound (s.addTransport t serial socket) := by
  have ⟨unused, unlisted⟩ := h.fresh free
  have other {u : Nat} (hu : u ∈ s.pendingList ++ s.transportList) : u ≠ t := by
    rintro rfl
    exact unlisted hu
  constructor
  case once =>
    intro u
    rw [uses_addTransport, List.count_singleton]
    have := h.once u
    split
    case isTrue he =>
      cases beq_iff_eq.mp he
      omega
    case isFalse => omega
  case awaited =>
    intro u hu
    rcases List.mem_cons.mp hu with rfl | hu
    · exact .inl (.head _)
    · exact (h.awaited u hu).imp_left (.tail _)
  case nodup => exact List.nodup_cons.mpr ⟨unlisted, h.nodup⟩
  case used =>
    intro u hu
    rw [face_addTransport]
    split
    case isTrue => rfl
    case isFalse hn =>
      rw [uses_addTransport, List.count_singleton, if_neg (by simpa using Ne.symm hn)] at hu
      exact h.used u hu
  case listed =>
    intro u hu
    rw [face_addTransport]
    split
    case isTrue => rfl
    case isFalse hn => exact h.listed u ((List.mem_cons.mp hu).resolve_left hn)
  case distinct =>
    intro u hu v hv i j name
    simp only [face_addTransport]
    rcases List.mem_cons.mp hu with rfl | hu <;> rcases List.mem_cons.mp hv with rfl | hv
    · exact fun _ _ => rfl
    · rw [if_pos rfl, if_neg (other hv)]
      rintro ⟨⟩ hj
      exact absurd hj (new rfl v hv j)
    · rw [if_pos rfl, if_neg (other hu)]
      rintro hi ⟨⟩
      exact absurd hi (new rfl u hu i)
    · rw [if_neg (other hu), if_neg (other hv)]
      exact h.distinct u hu v hv i j name

section Tasks

variable {tasks : List RegistryTask}

theorem awaited_of_tail {task : RegistryTask} (ht : s.tasks = task :: tasks)
    (other : ∀ u, task ≠ .register u) (h : s.Awaited u) : u ∈ s.calls ∨ .register u ∈ tasks := by
  refine h.imp_right fun hr => ?_
  rw [ht] at hr
  exact (List.mem_cons.mp hr).resolve_left (Ne.symm (other u))

theorem taken (h : Sound s) {task : RegistryTask} (ht : s.tasks = task :: tasks)
    (other : ∀ u, task ≠ .register u) : Sound { s with tasks } := by
  refine h.keep (fun u => ?_) (fun u hu => awaited_of_tail (s := s) ht other hu) rfl rfl rfl
  rw [uses_tail ht]
  exact Nat.le_add_right ..

theorem not_pending (h : Sound s) {task : RegistryTask} (ht : s.tasks = task :: tasks)
    (other : ∀ u, task ≠ .register u) : task.transport ∉ s.pendingList := by
  intro hp
  have once := h.once task.transport
  simp only [uses, ht, List.map_cons, List.count_cons, beq_self_eq_true, if_true] at once
  rcases h.awaited _ hp with hc | hr
  · have := List.count_pos_iff.mpr hc
    omega
  · rw [ht] at hr
    have hr := (List.mem_cons.mp hr).resolve_left (Ne.symm (other _))
    have : 0 < (tasks.map (·.transport)).count task.transport :=
      List.count_pos_iff.mpr (List.mem_map_of_mem (f := (·.transport)) hr)
    omega

theorem fdeventRegisterTransport (h : Sound s) (ht : s.tasks = .register t :: tasks) :
    Sound ({ s with tasks }.fdeventRegisterTransport t) := by
  have uses (u : Nat) : ({ s with tasks, live := t :: s.live } : Registry).uses u = s.uses u := by
    rw [uses_tail ht]
    simp only [Registry.uses, List.count_cons, List.count_nil, RegistryTask.transport_register]
    omega
  have awaited (u : Nat) (hu : u ∈ s.pendingList) (hn : u ≠ t) :
      ({ s with tasks, live := t :: s.live } : Registry).Awaited u := by
    refine (h.awaited u hu).imp_right fun hr => ?_
    rw [ht] at hr
    exact (List.mem_cons.mp hr).resolve_left (by simpa using hn)
  rw [Registry.fdeventRegisterTransport]
  dsimp only
  split
  case isTrue hp =>
    have perm : (s.pendingList.filter (· ≠ t) ++ t :: s.transportList).Perm
        (s.pendingList ++ s.transportList) := by
      have nodup := (List.nodup_append.mp h.nodup).1
      refine List.perm_middle.trans ?_
      have erase : s.pendingList.filter (· ≠ t) = s.pendingList.erase t := by
        rw [nodup.erase_eq_filter]
        exact List.filter_congr fun u _ => by rw [bne, decide_not]; rfl
      rw [← List.cons_append, erase]
      exact (List.perm_cons_erase (List.contains_iff_mem.mp hp)).symm.append_right _
    constructor
    case once => exact fun u => Nat.le_trans (Nat.le_of_eq (uses u)) (h.once u)
    case awaited =>
      intro u hu
      have ⟨hu, hn⟩ := List.mem_filter.mp hu
      exact awaited u hu (of_decide_eq_true hn)
    case nodup => exact perm.nodup_iff.mpr h.nodup
    case used => exact fun u hu => h.used u fun hz => hu ((uses u).trans hz)
    case listed => exact fun u hu => h.listed u (perm.subset hu)
    case distinct => exact fun u hu v hv => h.distinct u (perm.subset hu) v (perm.subset hv)
  case isFalse hp =>
    constructor
    case once => exact fun u => Nat.le_trans (Nat.le_of_eq (uses u)) (h.once u)
    case awaited =>
      refine fun u hu => awaited u hu ?_
      rintro rfl
      exact hp (List.contains_iff_mem.mpr hu)
    case nodup => exact h.nodup
    case used => exact fun u hu => h.used u fun hz => hu ((uses u).trans hz)
    case listed => exact h.listed
    case distinct => exact h.distinct

theorem fdeventUnregisterTransport (h : Sound s) (ht : s.tasks = .remove t :: tasks) :
    Sound ({ s with tasks }.fdeventUnregisterTransport t) := by
  have taken : Sound { s with tasks } := h.taken ht fun _ => nofun
  have pending : t ∉ s.pendingList := h.not_pending ht fun _ => nofun
  have unused : ({ s with tasks } : Registry).uses t = 0 := by
    have := h.once t
    rw [uses_tail ht] at this
    simpa using this
  have sub : (s.pendingList ++ s.transportList.filter (· ≠ t)).Sublist
      (s.pendingList ++ s.transportList) := List.filter_sublist.append_left _
  have other {u : Nat} (hu : u ∈ s.pendingList ++ s.transportList.filter (· ≠ t)) : u ≠ t := by
    rcases List.mem_append.mp hu with hu | hu
    · exact fun he => pending (he ▸ hu)
    · exact of_decide_eq_true (List.mem_filter.mp hu).2
  have face {u : Nat} (hu : u ≠ t) :
      ({ s with tasks }.fdeventUnregisterTransport t).face u = s.face u := by
    simp only [face, Registry.fdeventUnregisterTransport, Function.update_apply, if_neg hu]
  constructor
  case once => exact taken.once
  case awaited => exact taken.awaited
  case nodup => exact sub.nodup h.nodup
  case used =>
    intro u hu
    rw [face]
    · exact taken.used u hu
    · rintro rfl
      exact hu unused
  case listed =>
    intro u hu
    rw [face (other hu)]
    exact h.listed u (sub.subset hu)
  case distinct =>
    intro u hu v hv i j name
    rw [face (other hu), face (other hv)]
    exact h.distinct u (sub.subset hu) v (sub.subset hv) i j name

end Tasks

section Handler

variable {q : ReconnectAttempt} {result : ReconnectResult}

theorem move {handler : Option HandlerPoint} (h : Sound s) (hand : inHand handler = inHand s.handler) :
    Sound { s with handler } :=
  h.keep (fun _ => Nat.le_of_eq (uses_handler hand)) (fun _ => id) rfl rfl rfl

theorem giveUp {queue : List ReconnectAttempt} (h : Sound s) (hq : s.queue.Perm (q :: queue)) :
    Sound ({ s with queue }.removeTransport q.transport) := by
  refine h.keep (fun u => Nat.le_of_eq ?_)
    (fun _ hu => hu.imp_right (List.mem_append_left _)) rfl rfl rfl
  rw [uses_dequeue hq, uses_removeTransport]

theorem conclude (h : Sound s) (hh : s.handler = some (.attempt q)) :
    Sound ({ s with handler := some .waiting }.conclude q place result) := by
  have removed : Sound ({ s with handler := some .waiting }.removeTransport q.transport) := by
    refine h.keep (fun u => Nat.le_of_eq ?_)
      (fun _ hu => hu.imp_right (List.mem_append_left _)) rfl rfl rfl
    rw [uses_attempt hh, uses_removeTransport]
  cases result <;> rw [Registry.conclude]
  case retry =>
    split
    case isTrue => exact removed
    case isFalse =>
      refine h.keep (fun u => Nat.le_of_eq ?_) (fun _ => id) rfl rfl rfl
      rw [uses_attempt hh, uses_insertAttempt]
  case success =>
    refine h.keep (fun u => Nat.le_of_eq ?_)
      (fun _ hu => hu.imp_right (List.mem_append_left _)) rfl rfl rfl
    rw [uses_attempt hh]
    simp only [uses, count_tasks, RegistryTask.transport_register]
    omega
  case abort => exact removed

end Handler

theorem next (h : Sound s) (hs : s.next a = some s') : Sound s' := by
  cases next_moves hs
  case flags => exact h.keep (fun _ => Nat.le_refl _) (fun _ => id) rfl rfl rfl
  case add free new =>
    refine h.addTransport free fun hs u hu i hi => ?_
    obtain ⟨x, hx, heq⟩ := Option.map_eq_some_iff.mp hi
    simp only [Prod.mk.injEq] at heq
    exact new hs u hu x hx heq.2.1
  case register t hc =>
    refine h.keep (fun u => ?_) (fun u hu => ?_) rfl rfl rfl
    · have := count_erase_add (u := u) hc
      simp only [uses, count_tasks, RegistryTask.transport_register]
      omega
    · by_cases he : u = t
      · exact .inr (by simp [he])
      · exact hu.imp (List.mem_erase_of_ne he).mpr (List.mem_append_left _)
  case unlist t =>
    have sub : (s.pendingList ++ s.transportList.filter (· ≠ t)).Sublist
        (s.pendingList ++ s.transportList) := List.filter_sublist.append_left _
    exact ⟨h.once, h.awaited, sub.nodup h.nodup, h.used, fun u hu => h.listed u (sub.subset hu),
      fun u hu v hv => h.distinct u (sub.subset hu) v (sub.subset hv)⟩
  case kick hx =>
    refine h.keep (fun _ => Nat.le_refl _) (fun _ => id) (funext fun u => ?_) rfl rfl
    simp only [face, Function.update_apply]
    split
    case isTrue he => rw [he, hx]; rfl
    case isFalse => rfl
  case fail hl =>
    refine h.keep (fun u => ?_) (fun u hu => hu.imp_right (List.mem_append_left _)) rfl rfl rfl
    have := count_erase_add (u := u) hl
    simp only [uses, count_tasks, RegistryTask.transport_destroy]
    omega
  case enlist ht => exact h.fdeventRegisterTransport ht
  case track t place tasks ht _ =>
    refine h.keep (fun u => Nat.le_of_eq ?_) (fun _ => awaited_of_tail ht fun _ => nofun) rfl rfl rfl
    rw [uses_tail ht]
    exact uses_insertAttempt (s := { s with tasks }) ⟨t, maxAttempts, s.losses⟩ place
  case forget ht => exact h.taken ht fun _ => nofun
  case remove ht =>
    refine h.keep (fun u => Nat.le_of_eq ?_) (fun _ hu => ?_) rfl rfl rfl
    · rw [uses_tail ht, uses_removeTransport]
      rfl
    · exact (awaited_of_tail ht (fun _ => nofun) hu).imp_right (List.mem_append_left _)
  case delete ht => exact h.fdeventUnregisterTransport ht
  case move hand _ => exact h.move hand
  case pass hh _ hp =>
    refine h.move ?_
    rw [hh]
    rcases hp with rfl | rfl <;> rfl
  case giveUp hq _ => exact h.giveUp hq
  case take hh hq =>
    refine h.keep (fun u => Nat.le_of_eq ?_) (fun _ => id) rfl rfl rfl
    simp only [uses, hh, hq, inHand, List.map_append, List.map_cons, List.map_nil,
      List.count_append, List.count_cons, List.count_nil]
    omega
  case conclude hh => exact h.conclude hh

theorem of_reachable {P : Registry → Action → Prop} (h : Reachable P s) : Sound s := by
  refine h.invariant (fun _ _ _ _ hs h => h.next hs) ?_
  exact ⟨fun _ => Nat.zero_le 1, nofun, List.nodup_nil, fun _ hu => absurd rfl hu, nofun, nofun⟩

end Sound

end Registry
